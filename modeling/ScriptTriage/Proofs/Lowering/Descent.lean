import Mathlib.Order.MinMax
import ScriptTriage.Lowering

/-
How deep lowering goes. Lowering a node descends into some nodes at the cost of one level (`near`) and into others at
the cost of two (`far`); whatever else stands in the tree is read at most for its kind, its place or its text. The cost
is not the distance in the tree: parameters cost one level and lie two below, a loop's body costs nothing.

- `truncated_layer`: a layer is truncated exactly if something it descends into is.
- `layer_congr`: a layer depends on the lowering of what it descends into, and on no other.
- `truncated_node`: every tree demands a number of levels (`demand`), computed from the tree alone, and its lowering
  is truncated exactly if the budget is smaller.
- `node_eq_of_demand_le`: with budget enough, lowering does not depend on the budget.
- `exists_critical_depth`: so every script has one critical depth.
-/

namespace ScriptTriage

namespace Lowering

/-! ## What lowering descends into -/

/-- what lowering descends into at the cost of one level -/
def near (t : Tree) : List Tree :=
  match t.kind with
  | .functionDeclaration | .generatorFunctionDeclaration => parameters t
  | .expressionStatement | .returnStatement | .parenthesizedExpression => t.namedChildren.head?.toList
  | .ifStatement => (t.child? .condition).toList ++ (t.child? .consequence).toList
  | .statementBlock => t.namedChildren
  | .assignmentExpression | .augmentedAssignmentExpression => (t.child? .left).toList ++ (t.child? .right).toList
  | .callExpression => (t.child? .function).toList
  | _ => []

/-- the target and the value of a declarator -/
def declaratorParts (t : Tree) : List Tree := (t.child? .name).toList ++ (t.child? .value).toList

/-- what lowering descends into at the cost of two levels -/
def far (t : Tree) : List Tree :=
  match t.kind with
  | .variableDeclaration | .lexicalDeclaration => (declarators t).flatMap declaratorParts
  | .functionDeclaration | .generatorFunctionDeclaration => (functionBody? t).toList.flatMap (·.namedChildren)
  | .ifStatement => (alternative? t).toList
  | .callExpression => arguments t
  | _ => []

variable {source : String} {child child' grandchild grandchild' : Tree → Lowered Node} {t : Tree}

theorem truncated_declarator (below : Tree → Lowered Node) (t : Tree) :
    (declarator below t).truncated = (declaratorParts t).any fun c => (below c).truncated := by
  simp [declarator, declaratorParts]

theorem truncated_block (below : Tree → Lowered Node) (t : Tree) :
    (block below t).truncated = t.namedChildren.any fun c => (below c).truncated := by
  simp [block]

theorem truncated_layer (source : String) (child grandchild : Tree → Lowered Node) (t : Tree) :
    (layer source child grandchild t).truncated =
      (((near t).any fun c => (child c).truncated) || (far t).any fun c => (grandchild c).truncated) := by
  unfold layer near far
  cases t.kind with
  | variableDeclaration | lexicalDeclaration => simp [truncated_declarator, List.any_flatMap]
  | functionDeclaration | generatorFunctionDeclaration => simp [truncated_block, List.any_flatMap]
  | statementBlock => simp [truncated_block]
  | parenthesizedExpression => cases t.namedChildren.head? <;> simp
  | _ => simp

theorem optional_map_congr {below below' : Tree → Lowered Node} {c : Option Tree}
    (h : ∀ a ∈ c.toList, below a = below' a) : Lowered.optional (c.map below) = Lowered.optional (c.map below') := by
  cases c with
  | none => rfl
  | some a => rw [Option.map_some, Option.map_some, h a (by simp)]

theorem declarator_congr {below below' : Tree → Lowered Node} {t : Tree}
    (h : ∀ c ∈ declaratorParts t, below c = below' c) : declarator below t = declarator below' t := by
  unfold declarator
  rw [optional_map_congr fun c hc => h c (List.mem_append_left _ hc),
    optional_map_congr fun c hc => h c (List.mem_append_right _ hc)]

theorem block_congr {below below' : Tree → Lowered Node} {t : Tree} (h : ∀ c ∈ t.namedChildren, below c = below' c) :
    block below t = block below' t := by
  unfold block
  rw [List.map_congr_left h]

/-- a layer only looks at the lowering of what it descends into -/
theorem layer_congr (hnear : ∀ c ∈ near t, child c = child' c) (hfar : ∀ c ∈ far t, grandchild c = grandchild' c) :
    layer source child grandchild t = layer source child' grandchild' t := by
  unfold near at hnear
  unfold far at hfar
  unfold layer
  cases hk : t.kind with
  | variableDeclaration | lexicalDeclaration =>
    simp only [hk] at hfar ⊢
    rw [List.map_congr_left fun d hd => declarator_congr fun c hc => hfar c (List.mem_flatMap.2 ⟨d, hd, hc⟩)]
  | functionDeclaration | generatorFunctionDeclaration =>
    simp only [hk] at hnear hfar ⊢
    have hbody : (functionBody? t).map (block grandchild) = (functionBody? t).map (block grandchild') :=
      Option.map_congr fun b hb => block_congr fun c hc => hfar c (List.mem_flatMap.2 ⟨b, by simpa using hb, hc⟩)
    rw [List.map_congr_left hnear, hbody]
  | expressionStatement | returnStatement =>
    simp only [hk] at hnear ⊢
    rw [optional_map_congr hnear]
  | ifStatement =>
    simp only [hk] at hnear hfar ⊢
    rw [optional_map_congr fun c hc => hnear c (List.mem_append_left _ hc),
      optional_map_congr fun c hc => hnear c (List.mem_append_right _ hc), optional_map_congr hfar]
  | statementBlock =>
    simp only [hk] at hnear ⊢
    rw [block_congr hnear]
  | assignmentExpression | augmentedAssignmentExpression =>
    simp only [hk] at hnear ⊢
    rw [optional_map_congr fun c hc => hnear c (List.mem_append_left _ hc),
      optional_map_congr fun c hc => hnear c (List.mem_append_right _ hc)]
  | callExpression =>
    simp only [hk] at hnear hfar ⊢
    rw [optional_map_congr hnear, List.map_congr_left hfar]
  | parenthesizedExpression =>
    simp only [hk] at hnear ⊢
    cases hin : t.namedChildren.head? with
    | none => rfl
    | some inner => exact hnear inner (by simp [hin])
  | _ => rfl

/-! ## Descent goes into smaller trees -/

theorem sizeOf_lt_of_mem_children {c t : Tree} (h : c ∈ t.children) : sizeOf c < sizeOf t := by
  obtain ⟨kind, named, extra, role, span, children⟩ := t
  have hc := List.sizeOf_lt_of_mem h
  simp only [Tree.children] at hc
  simp only [Tree.node.sizeOf_spec]
  omega

theorem sizeOf_lt_of_child? {c t : Tree} {role : Role} (h : t.child? role = some c) : sizeOf c < sizeOf t :=
  sizeOf_lt_of_mem_children (List.mem_of_find?_eq_some h)

theorem sizeOf_lt_of_mem_namedChildren {c t : Tree} (h : c ∈ t.namedChildren) : sizeOf c < sizeOf t :=
  sizeOf_lt_of_mem_children (List.mem_filter.1 h).1

/-- the named children of a part that may be missing -/
theorem sizeOf_lt_of_mem_part {c t : Tree} {part : Option Tree} (hpart : ∀ p, part = some p → sizeOf p < sizeOf t)
    (h : c ∈ (part.map (·.namedChildren)).getD []) : sizeOf c < sizeOf t := by
  cases part with
  | none => exact absurd h List.not_mem_nil
  | some p => exact (sizeOf_lt_of_mem_namedChildren h).trans (hpart p rfl)

theorem sizeOf_lt_of_mem_parameters {c t : Tree} (h : c ∈ parameters t) : sizeOf c < sizeOf t :=
  sizeOf_lt_of_mem_part (fun _ hp => sizeOf_lt_of_child? hp) h

theorem sizeOf_lt_of_mem_arguments {c t : Tree} (h : c ∈ arguments t) : sizeOf c < sizeOf t :=
  sizeOf_lt_of_mem_part (fun _ hp => sizeOf_lt_of_child? (Option.filter_eq_some_iff.1 hp).1) h

theorem sizeOf_lt_of_alternative? {c t : Tree} (h : alternative? t = some c) : sizeOf c < sizeOf t := by
  obtain ⟨clause, hclause, hc⟩ := Option.bind_eq_some_iff.1 h
  have hlt := sizeOf_lt_of_child? hclause
  unfold elseStatement? at hc
  split at hc
  · exact (sizeOf_lt_of_mem_namedChildren (List.mem_of_head? hc)).trans hlt
  · cases hc
    exact hlt

theorem sizeOf_lt_of_mem_near {c t : Tree} (h : c ∈ near t) : sizeOf c < sizeOf t := by
  unfold near at h
  cases hk : t.kind with
  | functionDeclaration | generatorFunctionDeclaration =>
    simp only [hk] at h
    exact sizeOf_lt_of_mem_parameters h
  | expressionStatement | returnStatement | parenthesizedExpression =>
    simp only [hk, Option.mem_toList] at h
    exact sizeOf_lt_of_mem_namedChildren (List.mem_of_head? h)
  | ifStatement | assignmentExpression | augmentedAssignmentExpression =>
    simp only [hk, List.mem_append, Option.mem_toList] at h
    rcases h with h | h
    · exact sizeOf_lt_of_child? h
    · exact sizeOf_lt_of_child? h
  | statementBlock =>
    simp only [hk] at h
    exact sizeOf_lt_of_mem_namedChildren h
  | callExpression =>
    simp only [hk, Option.mem_toList] at h
    exact sizeOf_lt_of_child? h
  | _ => simp [hk] at h

theorem sizeOf_lt_of_mem_far {c t : Tree} (h : c ∈ far t) : sizeOf c < sizeOf t := by
  unfold far at h
  cases hk : t.kind with
  | variableDeclaration | lexicalDeclaration =>
    simp only [hk] at h
    obtain ⟨d, hd, hc⟩ := List.mem_flatMap.1 h
    have hlt : sizeOf d < sizeOf t := sizeOf_lt_of_mem_namedChildren (List.mem_filter.1 hd).1
    simp only [declaratorParts, List.mem_append, Option.mem_toList] at hc
    rcases hc with hc | hc
    · exact (sizeOf_lt_of_child? hc).trans hlt
    · exact (sizeOf_lt_of_child? hc).trans hlt
  | functionDeclaration | generatorFunctionDeclaration =>
    simp only [hk] at h
    obtain ⟨b, hb, hc⟩ := List.mem_flatMap.1 h
    have hbody : t.child? .body = some b := (Option.filter_eq_some_iff.1 (Option.mem_toList.1 hb)).1
    exact (sizeOf_lt_of_mem_namedChildren hc).trans (sizeOf_lt_of_child? hbody)
  | ifStatement =>
    simp only [hk, Option.mem_toList] at h
    exact sizeOf_lt_of_alternative? h
  | callExpression =>
    simp only [hk] at h
    exact sizeOf_lt_of_mem_arguments h
  | _ => simp [hk] at h

/-! ## The levels that a tree demands -/

/-- the least budget with which nothing of the tree is cut -/
def demand (t : Tree) : Nat :=
  max (((near t).attach.map fun c => demand c.1).foldr max 0)
    (((far t).attach.map fun c => demand c.1 + 1).foldr max 0) + 1
termination_by sizeOf t
decreasing_by
  · exact sizeOf_lt_of_mem_near c.2
  · exact sizeOf_lt_of_mem_far c.2

theorem lt_foldr_max_iff (l : List Nat) (b : Nat) : b < l.foldr max 0 ↔ ∃ n ∈ l, b < n := by
  induction l with
  | nil => simp
  | cons n l ih => simp [ih]

theorem lt_demand_iff (b : Nat) (t : Tree) :
    b < demand t ↔ b = 0 ∨ (∃ c ∈ near t, b - 1 < demand c) ∨ ∃ c ∈ far t, b - 1 < demand c + 1 := by
  rw [demand]
  cases b with
  | zero => simp
  | succ b => simp [lt_foldr_max_iff]

theorem demand_pos (t : Tree) : 0 < demand t := (lt_demand_iff 0 t).2 (Or.inl rfl)

theorem demand_lt_of_mem_near {c t : Tree} (h : c ∈ near t) : demand c < demand t := by
  have hpos := demand_pos c
  exact (lt_demand_iff _ t).2 (Or.inr (Or.inl ⟨c, h, by omega⟩))

theorem demand_succ_lt_of_mem_far {c t : Tree} (h : c ∈ far t) : demand c + 1 < demand t :=
  (lt_demand_iff _ t).2 (Or.inr (Or.inr ⟨c, h, by omega⟩))

theorem truncated_node (source : String) (budget : Nat) (t : Tree) :
    (node source budget t).truncated = true ↔ budget < demand t := by
  induction budget using Nat.strongRecOn generalizing t with
  | ind budget ih =>
    rw [lt_demand_iff]
    cases budget with
    | zero => simp [node, cut]
    | succ budget =>
      have hnear : ∀ c, (node source budget c).truncated = true ↔ budget < demand c := ih budget (by omega)
      -- where no budget is left for two more levels there is none for one, and every node demands one
      have hfar : ∀ c, (node source (budget - 1) c).truncated = true ↔ budget < demand c + 1 := by
        intro c
        have hpos := demand_pos c
        rw [ih (budget - 1) (by omega)]
        omega
      rw [node_succ, truncated_layer]
      simp [hnear, hfar]

theorem node_eq_of_demand_le (source : String) {budget budget' : Nat} {t : Tree} (h : demand t ≤ budget)
    (h' : demand t ≤ budget') : node source budget t = node source budget' t := by
  induction budget using Nat.strongRecOn generalizing t budget' with
  | ind budget ih =>
    have hpos := demand_pos t
    obtain ⟨b, rfl⟩ : ∃ b, budget = b + 1 := ⟨budget - 1, by omega⟩
    obtain ⟨b', rfl⟩ : ∃ b', budget' = b' + 1 := ⟨budget' - 1, by omega⟩
    rw [node_succ, node_succ]
    refine layer_congr (fun c hc => ?_) (fun c hc => ?_)
    · have hlt := demand_lt_of_mem_near hc
      exact ih b (by omega) (by omega) (by omega)
    · have hlt := demand_succ_lt_of_mem_far hc
      exact ih (b - 1) (by omega) (by omega) (by omega)

end Lowering

/-! ## The critical depth of a script -/

namespace SyntaxTree

/-- the least depth limit under which nothing of the script is cut -/
def criticalDepth (tree : SyntaxTree) : Nat := (tree.root.namedChildren.map Lowering.demand).foldr max 0

theorem truncated_lower (tree : SyntaxTree) (source : String) (maxDepth : Nat) :
    (tree.lower source maxDepth).truncated = true ↔ maxDepth < tree.criticalDepth := by
  simp [lower, criticalDepth, Lowering.lt_foldr_max_iff, Lowering.truncated_node]

theorem demand_le_criticalDepth (tree : SyntaxTree) {c : Tree} (hc : c ∈ tree.root.namedChildren) :
    Lowering.demand c ≤ tree.criticalDepth := by
  by_contra hlt
  have := (Lowering.lt_foldr_max_iff _ _).2 ⟨_, List.mem_map_of_mem hc, Nat.lt_of_not_le hlt⟩
  exact Nat.lt_irrefl _ this

theorem lower_eq_of_criticalDepth_le (tree : SyntaxTree) (source : String) {d d' : Nat} (h : tree.criticalDepth ≤ d)
    (h' : tree.criticalDepth ≤ d') : tree.lower source d = tree.lower source d' := by
  have hmap : tree.root.namedChildren.map (Lowering.node source d) =
      tree.root.namedChildren.map (Lowering.node source d') :=
    List.map_congr_left fun c hc =>
      Lowering.node_eq_of_demand_le source ((tree.demand_le_criticalDepth hc).trans h)
        ((tree.demand_le_criticalDepth hc).trans h')
  unfold lower
  rw [hmap]

/-- **One critical depth.** For every script there is a depth, whatever the source text, such that lowering is
truncated exactly under smaller limits, and all limits from there on give the same program. -/
theorem exists_critical_depth (tree : SyntaxTree) :
    ∃ D, ∀ source, (∀ d, (tree.lower source d).truncated = true ↔ d < D) ∧
      ∀ d d', D ≤ d → D ≤ d' → tree.lower source d = tree.lower source d' :=
  ⟨tree.criticalDepth, fun source => ⟨tree.truncated_lower source,
    fun _ _ h h' => tree.lower_eq_of_criticalDepth_le source h h'⟩⟩

end SyntaxTree

end ScriptTriage

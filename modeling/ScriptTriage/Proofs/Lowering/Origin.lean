import ScriptTriage.Proofs.Lowering.Position
import ScriptTriage.Proofs.Walk.Reach

/-
What a lowered program says comes from the tree. Every place where lowering makes a node, a declarator, a block or a name
gives it the location of a node of the tree; names and literals take their text from the source at that location.

- `Traced`: what a node says by itself, apart from the nodes that it holds, is what some nodes of a tree say.
- `traced_layer`: a layer says what its node, its declarators, its name and its body say.
- `traced_of_holds`: so this is true of every node that a lowered program holds, whatever the tree and the limit.
-/

namespace ScriptTriage

def Kind.isLiteral : Kind → Bool
  | .string | .number | .trueLiteral | .falseLiteral | .null | .regex => true
  | _ => false

def Kind.isName : Kind → Bool
  | .identifier | .undefined => true
  | _ => false

namespace Tree

/-- the node is in the tree, at any depth -/
def Contains (root t : Tree) : Prop := ∃ depth, root.AtDepth depth t

variable {root t c : Tree}

theorem Contains.child (h : root.Contains t) (hc : c ∈ t.children) : root.Contains c := by
  obtain ⟨depth, hdepth⟩ := h
  exact ⟨_, .child hdepth hc⟩

theorem Contains.namedChild (h : root.Contains t) (hc : c ∈ t.namedChildren) : root.Contains c :=
  h.child (mem_children_of_mem_namedChildren hc)

theorem Contains.inRole {role : Role} (h : root.Contains t) (hc : t.child? role = some c) : root.Contains c :=
  h.child (mem_children_of_child? hc)

end Tree

/-- the locations that a node gives: its own and those of its declarators, its name and its body -/
def Node.locations : Node → List (Option Location)
  | .variableDeclaration _ declarators loc => loc :: declarators.map Declarator.loc
  | .functionDeclaration id _ body loc => loc :: (id.toList.map Identifier.loc ++ body.toList.map Block.loc)
  | n => [n.loc]

namespace Lowering

/-- the location of a node of the tree of such a kind -/
def LocatedAs (root : Tree) (p : Kind → Bool) (loc : Option Location) : Prop :=
  ∃ t, root.Contains t ∧ p t.kind = true ∧ loc = some t.location

def Located (root : Tree) (loc : Option Location) : Prop := ∃ t, root.Contains t ∧ loc = some t.location

/-- what a node says by itself, apart from the nodes that it holds, is what nodes of the tree say -/
def Traced (root : Tree) (source : String) : Node → Prop
  | .variableDeclaration _ declarators loc =>
    Located root loc ∧ ∀ d ∈ declarators, LocatedAs root (· = .variableDeclarator) d.loc
  | .functionDeclaration id _ body loc =>
    Located root loc ∧ (∀ i ∈ id, ∃ t, root.Contains t ∧ i = identifier source t) ∧ ∀ b ∈ body, Located root b.loc
  | .expressionStatement _ loc => LocatedAs root (· = .expressionStatement) loc
  | .loop _ body loc =>
    LocatedAs root Kind.isLoop loc ∧ (body = none ∨ ∃ kind bodyLoc, body = some (.other kind bodyLoc))
  | .identifier i => ∃ t, root.Contains t ∧ t.kind.isName = true ∧ i = identifier source t
  | .literal l => ∃ t, root.Contains t ∧ t.kind.isLiteral = true ∧ .literal l = literal source t
  | n => Located root n.loc

variable {root t : Tree} {source : String} {child grandchild : Tree → Lowered Node} {n : Node}

theorem LocatedAs.located {p : Kind → Bool} {loc : Option Location} (h : LocatedAs root p loc) : Located root loc := by
  obtain ⟨t, ht, -, rfl⟩ := h
  exact ⟨t, ht, rfl⟩

/-- all locations that a node gives are those of nodes of the tree -/
theorem Traced.located (h : Traced root source n) : ∀ loc ∈ n.locations, Located root loc := by
  intro loc hloc
  cases n with
  | variableDeclaration kind declarators own =>
    rcases List.mem_cons.1 hloc with rfl | hloc
    · exact h.1
    · obtain ⟨d, hd, rfl⟩ := List.mem_map.1 hloc
      exact (h.2 d hd).located
  | functionDeclaration id params body own =>
    simp only [Node.locations, List.mem_cons, List.mem_append, List.mem_map, Option.mem_toList] at hloc
    rcases hloc with rfl | ⟨i, hi, rfl⟩ | ⟨b, hb, rfl⟩
    · exact h.1
    · obtain ⟨t, ht, rfl⟩ := h.2.1 i hi
      exact ⟨t, ht, rfl⟩
    · exact h.2.2 b hb
  | expressionStatement expression own =>
    have hown : LocatedAs root (· = .expressionStatement) own := h
    obtain rfl := List.mem_singleton.1 hloc
    exact hown.located
  | loop kind body own =>
    obtain rfl := List.mem_singleton.1 hloc
    exact h.1.located
  | identifier i =>
    obtain rfl := List.mem_singleton.1 hloc
    obtain ⟨t, ht, -, rfl⟩ := h
    exact ⟨t, ht, rfl⟩
  | literal l =>
    obtain rfl := List.mem_singleton.1 hloc
    obtain ⟨t, ht, -, hl⟩ := h
    cases hl
    exact ⟨t, ht, rfl⟩
  | _ =>
    obtain rfl := List.mem_singleton.1 hloc
    exact h

theorem traced_other (ht : root.Contains t) : Traced root source (other t) := ⟨t, ht, rfl⟩

theorem traced_literal (ht : root.Contains t) (hkind : t.kind.isLiteral = true) :
    Traced root source (literal source t) := ⟨t, ht, hkind, rfl⟩

theorem traced_loop (ht : root.Contains t) (hkind : t.kind.isLoop = true) (kind : LoopKind) :
    Traced root source (loop kind t) := by
  refine ⟨⟨t, ht, hkind, rfl⟩, ?_⟩
  cases t.child? .body with
  | none => exact .inl rfl
  | some b => exact .inr ⟨_, _, rfl⟩

theorem mem_value_optional_map {α : Type} {f : Tree → Lowered α} {c : Option Tree} {a : α}
    (h : a ∈ (Lowered.optional (c.map f)).value) : ∃ b ∈ c, (f b).value = a := by
  cases c with
  | none => cases h
  | some b => exact ⟨b, rfl, Option.some.inj h⟩

/-- parentheses apart, a layer says what nodes of the tree say -/
theorem traced_layer (ht : root.Contains t) (hcontent : content? t = none) :
    Traced root source (layer source child grandchild t).value := by
  unfold layer
  cases hk : t.kind with
  | variableDeclaration | lexicalDeclaration =>
    refine ⟨⟨t, ht, rfl⟩, fun d hd => ?_⟩
    rw [value_all_map] at hd
    obtain ⟨c, hc, rfl⟩ := List.mem_map.1 hd
    obtain ⟨hnamed, hkind⟩ := List.mem_filter.1 hc
    exact ⟨c, ht.namedChild hnamed, hkind, rfl⟩
  | functionDeclaration | generatorFunctionDeclaration =>
    refine ⟨⟨t, ht, rfl⟩, fun i hi => ?_, fun b hb => ?_⟩
    · obtain ⟨c, hc, rfl⟩ := Option.map_eq_some_iff.1 hi
      exact ⟨c, ht.inRole hc, rfl⟩
    · obtain ⟨c, hc, rfl⟩ := mem_value_optional_map hb
      exact ⟨c, ht.inRole (Option.filter_eq_some_iff.1 hc).1, rfl⟩
  | expressionStatement => exact ⟨t, ht, by simp [hk], rfl⟩
  | forStatement | forInStatement | whileStatement | doStatement => exact traced_loop ht (by rw [hk]; rfl) _
  | parenthesizedExpression =>
    rw [content?, if_pos hk] at hcontent
    simp only [hcontent]
    exact traced_other ht
  | identifier | undefined => exact ⟨t, ht, by rw [hk]; rfl, rfl⟩
  | string | number | trueLiteral | falseLiteral | null | regex => exact traced_literal ht (by rw [hk]; rfl)
  | ifStatement | returnStatement | statementBlock | assignmentExpression | augmentedAssignmentExpression
    | callExpression => exact ⟨t, ht, rfl⟩
  | variableDeclarator | elseClause | arguments | escapeSequence | other _ => exact traced_other ht

theorem contains_of_stands {body : List Node} {path : List Nat} {route : Route}
    (h : Stands root body path route t n) : root.Contains t :=
  ⟨_, h.passed.atDepth⟩

/-- every node of a lowered program says what nodes of the tree say -/
theorem traced_of_holds {tree : SyntaxTree} {maxDepth : Nat} (h : Holds (tree.lower source maxDepth).body n) :
    Traced tree.root source n := by
  obtain ⟨path, hpath⟩ := h
  cases provenance_of_holdsAt hpath with
  | @lowered route t h hcharge hcontent hn =>
    rw [hn, Route.levelsLeft_of_le hcharge, node_succ]
    exact traced_layer (contains_of_stands h) hcontent
  | @replaced route t h _ _ hn =>
    rw [hn]
    exact ⟨t, contains_of_stands h, rfl⟩
  | @loopBody route outer t b loop h _ _ _ hbody hn =>
    rw [hn]
    exact traced_other ((contains_of_stands h).inRole hbody)

end Lowering

end ScriptTriage

import ScriptTriage.Proofs.Lowering.Padding

/-
What lowering sees of a tree. Below a node of a kind without a shape, below a node past the depth limit, and inside a
loop, there may be anything: `Redrawn source budget t t'` says that `t'` is `t` with such parts replaced, where lowering
may enter `budget` levels from `t` on. The replacements may be of any size and depth.

- `layer_redrawn`: a layer over redrawn children is the same, if redrawn trees are lowered to the same below it.
- `node_redrawn`: so a redrawn tree is lowered to the same node, and it is cut exactly if the other one is.
- `lower_eq_of_redrawn`: the program of a script depends on the visible part of its tree only.
-/

namespace ScriptTriage

/-! ## Redrawn trees -/

/-- has lowering a shape of its own for nodes of this kind? -/
def Kind.hasShape : Kind → Bool
  | .variableDeclarator | .elseClause | .arguments | .escapeSequence | .other _ => false
  | _ => true

def Kind.isLoop : Kind → Bool
  | .forStatement | .forInStatement | .whileStatement | .doStatement => true
  | _ => false

/-- does lowering look through this child of a node of kind `parent`, at the child's own children? -/
def looksThrough (parent : Kind) (c : Tree) : Bool :=
  match parent with
  | .variableDeclaration | .lexicalDeclaration => c.kind == .variableDeclarator
  | .functionDeclaration | .generatorFunctionDeclaration =>
    c.role == some .parameters || (c.role == some .body && c.kind == .statementBlock)
  | .ifStatement => c.role == some .alternative && c.kind == .elseClause
  | .callExpression => c.role == some .arguments && c.kind == .arguments
  | _ => false

/-- how many levels may be entered at a child, or below it if lowering looks through it; `budget` may be entered at most,
and some places cost a level more -/
def levelsAt (budget : Nat) (parent : Kind) (role : Option Role) : Nat :=
  match parent with
  | .variableDeclaration | .lexicalDeclaration => budget - 1
  | .functionDeclaration | .generatorFunctionDeclaration => if role = some .body then budget - 1 else budget
  | .ifStatement => if role = some .alternative then budget - 1 else budget
  | .callExpression => if role = some .arguments then budget - 1 else budget
  | _ => budget

/-- the kind and the span of a body -/
def bodyOutline (t : Tree) : Option (Kind × Span) := (t.child? .body).map fun b => (b.kind, b.span)

/-- the same node, but for its children -/
structure SameHead (t t' : Tree) : Prop where
  kind : t'.kind = t.kind
  named : t'.named = t.named
  extra : t'.extra = t.extra
  role : t'.role = t.role
  span : t'.span = t.span

mutual

/-- the second tree is the first with something else where lowering does not look, if it may enter `budget` levels -/
inductive Redrawn (source : String) : Nat → Tree → Tree → Prop where
  | same {budget t} : Redrawn source budget t t
  /-- anything may stand below a node that is not entered -/
  | pastLimit {t t'} (h : SameHead t t') : Redrawn source 0 t t'
  /-- anything may stand below a node of a kind without a shape -/
  | shapeless {budget t t'} (h : SameHead t t') (hkind : t.kind.hasShape = false) : Redrawn source budget t t'
  /-- anything may stand in a loop, but for the kind and the span of its body and the operator of a loop over values -/
  | loop {budget t t'} (h : SameHead t t') (hkind : t.kind.isLoop = true)
    (hbody : bodyOutline t = bodyOutline t')
    (hoperator : t.kind = .forInStatement →
      Lowering.roleText source t .operator = Lowering.roleText source t' .operator) :
    Redrawn source budget t t'
  /-- elsewhere the children stay, and may be redrawn in turn -/
  | node {budget t t'} (h : SameHead t t') (hs : RedrawnChildren source budget t.kind t.children t'.children) :
    Redrawn source (budget + 1) t t'

/-- the same for the children of a node of kind `parent` that leaves `budget` levels -/
inductive RedrawnChildren (source : String) : Nat → Kind → List Tree → List Tree → Prop where
  | nil {budget parent} : RedrawnChildren source budget parent [] []
  | lowered {budget parent c c' cs cs'} (hlook : looksThrough parent c = false)
    (h : Redrawn source (levelsAt budget parent c.role) c c') (hs : RedrawnChildren source budget parent cs cs') :
    RedrawnChildren source budget parent (c :: cs) (c' :: cs')
  | through {budget parent c c' cs cs'} (hlook : looksThrough parent c = true) (hhead : SameHead c c')
    (h : RedrawnList source (levelsAt budget parent c.role) c.children c'.children)
    (hs : RedrawnChildren source budget parent cs cs') : RedrawnChildren source budget parent (c :: cs) (c' :: cs')

/-- the same for trees at which `budget` levels may be entered -/
inductive RedrawnList (source : String) : Nat → List Tree → List Tree → Prop where
  | nil {budget} : RedrawnList source budget [] []
  | cons {budget c c' cs cs'} (h : Redrawn source budget c c') (hs : RedrawnList source budget cs cs') :
    RedrawnList source budget (c :: cs) (c' :: cs')

end

variable {source : String} {budget : Nat} {parent : Kind} {t t' c c' : Tree} {cs cs' : List Tree}

namespace SameHead

theorem refl (t : Tree) : SameHead t t := ⟨rfl, rfl, rfl, rfl, rfl⟩

theorem location_eq (h : SameHead t t') : t.location = t'.location := by
  rw [Tree.location, Tree.location, h.span]

theorem text_eq (h : SameHead t t') (source : String) : t.text source = t'.text source := by
  rw [Tree.text, Tree.text, h.span]

theorem isItem_eq (h : SameHead t t') : t'.isItem = t.isItem := by
  rw [Tree.isItem, Tree.isItem, h.named, h.extra]

end SameHead

theorem Redrawn.sameHead (h : Redrawn source budget t t') : SameHead t t' := by
  cases h with
  | same => exact .refl t
  | pastLimit h | shapeless h | loop h | node h => exact h

theorem RedrawnList.forall₂ (h : RedrawnList source budget cs cs') : List.Forall₂ (Redrawn source budget) cs cs' := by
  induction cs generalizing cs' with
  | nil =>
    cases h
    exact .nil
  | cons c cs ih =>
    cases h with
    | cons h hs => exact .cons h (ih hs)

/-- what is said of one child -/
structure RedrawnChild (source : String) (budget : Nat) (parent : Kind) (c c' : Tree) : Prop where
  head : SameHead c c'
  lowered : looksThrough parent c = false → Redrawn source (levelsAt budget parent c.role) c c'
  through : looksThrough parent c = true →
    List.Forall₂ (Redrawn source (levelsAt budget parent c.role)) c.children c'.children

theorem RedrawnChildren.forall₂ (h : RedrawnChildren source budget parent cs cs') :
    List.Forall₂ (RedrawnChild source budget parent) cs cs' := by
  induction cs generalizing cs' with
  | nil =>
    cases h
    exact .nil
  | cons c cs ih =>
    cases h with
    | lowered hlook h hs =>
      exact .cons ⟨h.sameHead, fun _ => h, fun hthrough => by simp [hlook] at hthrough⟩ (ih hs)
    | through hlook hhead h hs =>
      exact .cons ⟨hhead, fun hlowered => by simp [hlook] at hlowered, fun _ => h.forall₂⟩ (ih hs)

/-! ## Reading the children of a redrawn node -/

section Reading

variable {r : Tree → Tree → Prop}

theorem forall₂_filter (h : List.Forall₂ r cs cs') {p : Tree → Bool} (hp : ∀ c c', r c c' → p c' = p c) :
    List.Forall₂ r (cs.filter p) (cs'.filter p) :=
  List.rel_filter (fun c c' hc => by simp [hp c c' hc]) h

theorem forall₂_namedChildren (h : List.Forall₂ r t.children t'.children) (hr : ∀ c c', r c c' → SameHead c c') :
    List.Forall₂ r t.namedChildren t'.namedChildren :=
  forall₂_filter h fun c c' hc => (hr c c' hc).isItem_eq

theorem rel_child? (h : List.Forall₂ r t.children t'.children) (hr : ∀ c c', r c c' → SameHead c c') (role : Role) :
    Option.Rel (fun c c' => c.role = some role ∧ r c c') (t.child? role) (t'.child? role) := by
  rw [Tree.child?, Tree.child?, ← List.head?_filter, ← List.head?_filter]
  refine rel_imp (rel_head? (forall₂_filter h fun c c' hc => by rw [(hr c c' hc).role])) ?_
  intro c c' hfound hc
  rw [List.head?_filter] at hfound
  exact ⟨by simpa using List.find?_some hfound, hc⟩

end Reading

namespace Lowering

/-! ### What is read of nodes whose children keep their heads -/

theorem other_eq (h : SameHead t t') : other t = other t' := by
  rw [other, other, h.kind, h.location_eq]

theorem identifier_eq (h : SameHead t t') (source : String) : identifier source t = identifier source t' := by
  rw [identifier, identifier, h.text_eq, h.location_eq]

theorem roleText_eq (hs : List.Forall₂ SameHead t.children t'.children) (source : String) (role : Role) :
    roleText source t role = roleText source t' role :=
  map_eq_of_rel (rel_child? hs (fun _ _ hc => hc) role) fun _ _ _ hc => hc.2.text_eq source

theorem segments_eq (hs : List.Forall₂ SameHead t.children t'.children) (source : String) :
    segments source t = segments source t' := by
  unfold segments
  refine map_eq_of_forall₂ (forall₂_filter hs fun c c' hc => hc.named) fun c c' _ hc => ?_
  rw [hc.kind, hc.text_eq]

theorem literal_eq (h : SameHead t t') (hs : List.Forall₂ SameHead t.children t'.children) (source : String) :
    literal source t = literal source t' := by
  unfold literal literalValue
  rw [h.kind, h.text_eq, h.location_eq, segments_eq hs, roleText_eq hs, roleText_eq hs]

theorem loop_eq (h : SameHead t t') (hbody : bodyOutline t = bodyOutline t') (kind : LoopKind) :
    loop kind t = loop kind t' := by
  have hother : ∀ t : Tree, (t.child? .body).map other =
      (bodyOutline t).map fun b => Node.other b.1.name (some b.2.location) := by
    intro t
    rw [bodyOutline, Option.map_map]
    rfl
  rw [loop, loop, hother, hother, hbody, h.location_eq]

/-! ### What is lowered below redrawn nodes -/

variable {below : Tree → Lowered Node}

theorem declarator_redrawn (h : SameHead t t') (hs : List.Forall₂ (Redrawn source budget) t.children t'.children)
    (hbelow : ∀ c c', Redrawn source budget c c' → below c = below c') : declarator below t = declarator below t' := by
  have hpart : ∀ role, (t.child? role).map below = (t'.child? role).map below := fun role =>
    map_eq_of_rel (rel_child? hs (fun _ _ hc => hc.sameHead) role) fun c c' _ hc => hbelow c c' hc.2
  unfold declarator
  rw [hpart .name, hpart .value, h.location_eq]

/-- the same node, but that the items in it are redrawn -/
structure RedrawnItems (source : String) (levels : Nat) (t t' : Tree) : Prop where
  head : SameHead t t'
  items : List.Forall₂ (Redrawn source levels) t.namedChildren t'.namedChildren

theorem block_redrawn (h : RedrawnItems source budget t t')
    (hbelow : ∀ c c', Redrawn source budget c c' → below c = below c') : block below t = block below t' := by
  unfold block
  rw [map_eq_of_forall₂ h.items fun c c' _ hc => hbelow c c' hc, h.head.location_eq]

/-- a part that lowering looks through -/
theorem rel_through {role : Role} {levels : Nat} {o o' : Option Tree}
    (h : Option.Rel (fun c c' => c.role = some role ∧ RedrawnChild source budget parent c c') o o')
    (hlook : ∀ c, o = some c → c.role = some role → looksThrough parent c = true)
    (hlevels : levelsAt budget parent (some role) = levels) :
    Option.Rel (RedrawnItems source levels) o o' := by
  refine rel_imp h ?_
  rintro c c' hfound ⟨hrole, hc⟩
  have hparts := hc.through (hlook c hfound hrole)
  rw [hrole, hlevels] at hparts
  exact ⟨hc.head, forall₂_namedChildren hparts fun _ _ hd => hd.sameHead⟩

theorem forall₂_items_redrawn {o o' : Option Tree} (h : Option.Rel (RedrawnItems source budget) o o') :
    List.Forall₂ (Redrawn source budget) ((o.map (·.namedChildren)).getD []) ((o'.map (·.namedChildren)).getD []) := by
  cases h with
  | none => exact .nil
  | some h => exact h.items

section Children

variable (hs : List.Forall₂ (RedrawnChild source budget parent) t.children t'.children)
include hs

theorem forall₂_namedChildren_redrawn {levels : Nat}
    (hplace : ∀ c, looksThrough parent c = false ∧ levelsAt budget parent c.role = levels) :
    List.Forall₂ (Redrawn source levels) t.namedChildren t'.namedChildren := by
  refine (forall₂_namedChildren hs fun _ _ hc => hc.head).imp fun c c' hc => ?_
  rw [← (hplace c).2]
  exact hc.lowered (hplace c).1

theorem map_child?_redrawn (role : Role) {levels : Nat}
    (hlook : ∀ c, c.role = some role → looksThrough parent c = false)
    (hlevels : levelsAt budget parent (some role) = levels)
    (hbelow : ∀ c c', Redrawn source levels c c' → below c = below c') :
    (t.child? role).map below = (t'.child? role).map below := by
  refine map_eq_of_rel (rel_child? hs (fun _ _ hc => hc.head) role) fun c c' _ hc => hbelow c c' ?_
  have h := hc.2.lowered (hlook c hc.1)
  rwa [hc.1, hlevels] at h

theorem map_declarators_redrawn (hk : parent = .variableDeclaration ∨ parent = .lexicalDeclaration)
    (hbelow : ∀ c c', Redrawn source (budget - 1) c c' → below c = below c') :
    (declarators t).map (declarator below) = (declarators t').map (declarator below) := by
  have hdeclarators : List.Forall₂ (RedrawnChild source budget parent) (declarators t) (declarators t') :=
    forall₂_filter (forall₂_namedChildren hs fun _ _ hc => hc.head) fun _ _ hc => by rw [hc.head.kind]
  refine map_eq_of_forall₂ hdeclarators fun d d' hd' hd => ?_
  have hkind : d.kind = .variableDeclarator := by
    rw [← hd.head.kind]
    simpa using (List.mem_filter.1 hd').2
  have hlook : looksThrough parent d = true := by rcases hk with rfl | rfl <;> simp [looksThrough, hkind]
  have hlevels : levelsAt budget parent d.role = budget - 1 := by rcases hk with rfl | rfl <;> rfl
  have hparts := hd.through hlook
  rw [hlevels] at hparts
  exact declarator_redrawn hd.head hparts hbelow

theorem forall₂_parameters_redrawn (hk : parent = .functionDeclaration ∨ parent = .generatorFunctionDeclaration) :
    List.Forall₂ (Redrawn source budget) (parameters t) (parameters t') := by
  refine forall₂_items_redrawn (rel_through (rel_child? hs (fun _ _ hc => hc.head) .parameters) ?_ ?_)
  · intro c _ hrole
    rcases hk with rfl | rfl <;> simp [looksThrough, hrole]
  · rcases hk with rfl | rfl <;> rfl

theorem rel_functionBody?_redrawn (hk : parent = .functionDeclaration ∨ parent = .generatorFunctionDeclaration) :
    Option.Rel (RedrawnItems source (budget - 1)) (functionBody? t) (functionBody? t') := by
  refine rel_through (rel_filter (rel_child? hs (fun _ _ hc => hc.head) .body) fun _ _ hc => ?_) ?_ ?_
  · rw [hc.2.head.kind]
  · intro c hfound hrole
    have hkind : c.kind = .statementBlock := by simpa using (Option.filter_eq_some_iff.1 hfound).2
    rcases hk with rfl | rfl <;> simp [looksThrough, hrole, hkind]
  · rcases hk with rfl | rfl <;> rfl

theorem forall₂_arguments_redrawn (hk : parent = .callExpression) :
    List.Forall₂ (Redrawn source (budget - 1)) (arguments t) (arguments t') := by
  subst hk
  refine forall₂_items_redrawn
    (rel_through (rel_filter (rel_child? hs (fun _ _ hc => hc.head) .arguments) fun _ _ hc => ?_) ?_ rfl)
  · rw [hc.2.head.kind]
  · intro c hfound hrole
    have hkind : c.kind = .arguments := by simpa using (Option.filter_eq_some_iff.1 hfound).2
    simp [looksThrough, hrole, hkind]

theorem rel_alternative?_redrawn (hk : parent = .ifStatement) :
    Option.Rel (Redrawn source (budget - 1)) (alternative? t) (alternative? t') := by
  subst hk
  have hclause := rel_child? hs (fun _ _ hc => hc.head) .alternative
  unfold alternative?
  generalize t.child? .alternative = clause, t'.child? .alternative = clause' at hclause ⊢
  cases hclause with
  | none => exact .none
  | @some c c' hc =>
    obtain ⟨hrole, hc⟩ := hc
    rw [Option.bind_some, Option.bind_some, elseStatement?, elseStatement?, hc.head.kind]
    split
    · rename_i hkind
      have hparts := hc.through (by simp [looksThrough, hrole, hkind])
      rw [hrole] at hparts
      exact rel_head? (forall₂_namedChildren hparts fun _ _ hd => hd.sameHead)
    · rename_i hkind
      have hstatement := hc.lowered (by simp [looksThrough, hkind])
      rw [hrole] at hstatement
      exact .some hstatement

end Children

/-- a layer over redrawn children is the same, if redrawn trees are lowered to the same below it -/
theorem layer_redrawn {child grandchild : Tree → Lowered Node} (h : SameHead t t')
    (hs : List.Forall₂ (RedrawnChild source budget t.kind) t.children t'.children)
    (hnear : ∀ c c', Redrawn source budget c c' → child c = child c')
    (hfar : ∀ c c', Redrawn source (budget - 1) c c' → grandchild c = grandchild c') :
    layer source child grandchild t = layer source child grandchild t' := by
  have hheads : List.Forall₂ SameHead t.children t'.children := hs.imp fun _ _ hc => hc.head
  have hbody : bodyOutline t = bodyOutline t' :=
    map_eq_of_rel (rel_child? hheads (fun _ _ hc => hc) .body) fun _ _ _ hc => by rw [hc.2.kind, hc.2.span]
  unfold layer
  rw [h.kind, h.location_eq]
  cases hk : t.kind with
  | variableDeclaration | lexicalDeclaration =>
    rw [hk] at hs
    dsimp only
    rw [map_declarators_redrawn hs (by simp) hfar, declarationKind, declarationKind, roleText_eq hheads]
  | functionDeclaration | generatorFunctionDeclaration =>
    rw [hk] at hs
    dsimp only
    have hname := map_eq_of_rel (rel_child? hheads (fun _ _ hc => hc) .name) fun _ _ _ hc => identifier_eq hc.2 source
    rw [hname, map_eq_of_forall₂ (forall₂_parameters_redrawn hs (by simp)) fun c c' _ => hnear c c',
      map_eq_of_rel (rel_functionBody?_redrawn hs (by simp)) fun _ _ _ hb => block_redrawn hb hfar]
  | expressionStatement | returnStatement =>
    rw [hk] at hs
    dsimp only
    rw [map_eq_of_rel (rel_head? (forall₂_namedChildren_redrawn hs fun _ => ⟨rfl, rfl⟩)) fun c c' _ => hnear c c']
  | ifStatement =>
    rw [hk] at hs
    dsimp only
    rw [map_child?_redrawn hs .condition (fun c hrole => by simp [looksThrough, hrole]) rfl hnear,
      map_child?_redrawn hs .consequence (fun c hrole => by simp [looksThrough, hrole]) rfl hnear,
      map_eq_of_rel (rel_alternative?_redrawn hs rfl) fun c c' _ => hfar c c']
  | forStatement | whileStatement | doStatement =>
    dsimp only
    rw [loop_eq h hbody]
  | forInStatement =>
    dsimp only
    rw [loop_eq h hbody, loopKindOfIn, loopKindOfIn, roleText_eq hheads]
  | statementBlock =>
    rw [hk] at hs
    dsimp only
    rw [block_redrawn ⟨h, forall₂_namedChildren_redrawn hs fun _ => ⟨rfl, rfl⟩⟩ hnear]
  | assignmentExpression | augmentedAssignmentExpression =>
    rw [hk] at hs
    dsimp only
    have hoperator : assignmentOperator source t = assignmentOperator source t' := by
      rw [assignmentOperator, assignmentOperator, h.kind, roleText_eq hheads]
    rw [map_child?_redrawn hs .left (fun _ _ => rfl) rfl hnear, map_child?_redrawn hs .right (fun _ _ => rfl) rfl hnear,
      hoperator]
  | callExpression =>
    rw [hk] at hs
    dsimp only
    rw [map_child?_redrawn hs .function (fun c hrole => by simp [looksThrough, hrole]) rfl hnear,
      map_eq_of_forall₂ (forall₂_arguments_redrawn hs rfl) fun c c' _ => hfar c c']
  | parenthesizedExpression =>
    rw [hk] at hs
    dsimp only
    have hinner : Option.Rel (Redrawn source budget) t.namedChildren.head? t'.namedChildren.head? :=
      rel_head? (forall₂_namedChildren_redrawn hs fun _ => ⟨rfl, rfl⟩)
    generalize t.namedChildren.head? = inner, t'.namedChildren.head? = inner' at hinner ⊢
    cases hinner with
    | none => exact congrArg Lowered.whole (other_eq h)
    | some hc => exact hnear _ _ hc
  | identifier | undefined =>
    dsimp only
    rw [identifier_eq h]
  | string | number | trueLiteral | falseLiteral | null | regex =>
    dsimp only
    rw [literal_eq h hheads]
  | _ =>
    dsimp only
    rw [other_eq h]

theorem layer_of_shapeless (hkind : t.kind.hasShape = false) (source : String) (child grandchild : Tree → Lowered Node) :
    layer source child grandchild t = .whole (other t) := by
  unfold layer
  cases hk : t.kind with
  | variableDeclarator | elseClause | arguments | escapeSequence | other _ => rfl
  | _ =>
    rw [hk] at hkind
    cases hkind

/-- a loop keeps nothing but its kind and the outline of its body, and costs no level -/
theorem layer_of_loop {child grandchild : Tree → Lowered Node} (h : SameHead t t') (hkind : t.kind.isLoop = true)
    (hbody : bodyOutline t = bodyOutline t')
    (hoperator : t.kind = .forInStatement → roleText source t .operator = roleText source t' .operator) :
    layer source child grandchild t = layer source child grandchild t' := by
  unfold layer
  rw [h.kind]
  cases hk : t.kind with
  | forStatement | whileStatement | doStatement =>
    dsimp only
    rw [loop_eq h hbody]
  | forInStatement =>
    dsimp only
    rw [loop_eq h hbody, loopKindOfIn, loopKindOfIn, hoperator hk]
  | _ =>
    rw [hk] at hkind
    cases hkind

/-- a redrawn tree is lowered to the same node, and cut exactly if the other one is -/
theorem node_redrawn (h : Redrawn source budget t t') : node source budget t = node source budget t' := by
  induction budget using Nat.strongRecOn generalizing t t' with
  | ind budget ih =>
    cases budget with
    | zero => rw [node, cut, cut, placeholder, placeholder, h.sameHead.location_eq]
    | succ budget =>
      rw [node_succ, node_succ]
      cases h with
      | same => rfl
      | shapeless h hkind =>
        rw [layer_of_shapeless hkind, layer_of_shapeless (by rw [h.kind, hkind]), other_eq h]
      | loop h hkind hbody hoperator => exact layer_of_loop h hkind hbody hoperator
      | node h hs =>
        exact layer_redrawn h hs.forall₂ (fun c c' hc => ih budget (by omega) hc)
          (fun c c' hc => ih (budget - 1) (by omega) hc)

/-- which nodes become opaque; parentheses become what stands in them -/
theorem node_eq_other_iff (source : String) (budget : Nat) (hparens : t.kind ≠ .parenthesizedExpression) :
    (∃ kind loc, (node source budget t).value = .other kind loc) ↔ budget = 0 ∨ t.kind.hasShape = false := by
  cases budget with
  | zero => exact ⟨fun _ => .inl rfl, fun _ => ⟨_, _, rfl⟩⟩
  | succ budget =>
    rw [node_succ]
    constructor
    · rintro ⟨kind, loc, hother⟩
      unfold layer at hother
      cases hk : t.kind with
      | variableDeclarator | elseClause | arguments | escapeSequence | other _ => exact .inr rfl
      | parenthesizedExpression => exact absurd hk hparens
      | _ =>
        rw [hk] at hother
        cases hother
    · rintro (hzero | hkind)
      · cases hzero
      · rw [layer_of_shapeless hkind]
        exact ⟨_, _, rfl⟩

end Lowering

/-! ## Scripts -/

namespace SyntaxTree

/-- **Lowering sees the visible part of a tree only.** Replace anything below nodes that become opaque, because lowering
has no shape for them or because they are past the depth limit, and anything inside loops but the outline of the body
and the operator: the body of the program is the same, and so is the mark that something was cut. -/
theorem lower_eq_of_redrawn (tree tree' : SyntaxTree) (source : String) (maxDepth : Nat)
    (h : RedrawnList source maxDepth tree.root.children tree'.root.children) :
    (tree.lower source maxDepth).body = (tree'.lower source maxDepth).body ∧
    (tree.lower source maxDepth).truncated = (tree'.lower source maxDepth).truncated ∧
    ∀ (budget : Nat) (t : Tree), t.kind ≠ .parenthesizedExpression →
      ((∃ kind loc, (Lowering.node source budget t).value = .other kind loc) ↔ budget = 0 ∨ t.kind.hasShape = false) := by
  have hnodes : tree.root.namedChildren.map (Lowering.node source maxDepth) =
      tree'.root.namedChildren.map (Lowering.node source maxDepth) :=
    Lowering.map_eq_of_forall₂ (forall₂_namedChildren h.forall₂ fun _ _ hc => hc.sameHead) fun _ _ _ hc =>
      Lowering.node_redrawn hc
  unfold lower
  rw [hnodes]
  exact ⟨rfl, rfl, fun budget t hparens => Lowering.node_eq_other_iff source budget hparens⟩

end SyntaxTree

/-! ### A script with a loop, a class and a call past the limit -/

/-- a script, with something in its loop, in its class and in its call -/
def veiledScript (looped members called : List Tree) : SyntaxTree :=
  { root := .node (.other "program") true false none (onFirstLine 0 32)
      [.node .whileStatement true false none (onFirstLine 0 12)
        (looped ++ [.node .statementBlock true false (some .body) (onFirstLine 9 12) looped]),
       .node (.other "class_declaration") true false none (onFirstLine 13 22) members,
       .node .expressionStatement true false none (onFirstLine 23 32)
        [.node .callExpression true false none (onFirstLine 23 31) called]]
    hasErrors := false }

theorem redrawnList_veiledScript : RedrawnList "" 1 (veiledScript [] [] []).root.children
    (veiledScript [payload, runName none] [payload] [runName (some .function)]).root.children := by
  refine .cons (.loop ⟨rfl, rfl, rfl, rfl, rfl⟩ rfl rfl (fun hkind => by cases hkind)) ?_
  refine .cons (.shapeless ⟨rfl, rfl, rfl, rfl, rfl⟩ rfl) ?_
  refine .cons (.node ⟨rfl, rfl, rfl, rfl, rfl⟩ ?_) .nil
  exact .lowered rfl (.pastLimit ⟨rfl, rfl, rfl, rfl, rfl⟩) .nil

/-- only the call past the limit sets the mark, with and without something in it -/
theorem lower_eq_of_redrawn_veiledScript :
    RedrawnList "" 1 (veiledScript [] [] []).root.children
      (veiledScript [payload, runName none] [payload] [runName (some .function)]).root.children ∧
    ((veiledScript [] [] []).lower "" 1).body =
      ((veiledScript [payload, runName none] [payload] [runName (some .function)]).lower "" 1).body ∧
    ((veiledScript [] [] []).lower "" 1).truncated = true ∧
    ((veiledScript [payload, runName none] [payload] [runName (some .function)]).lower "" 1).truncated = true := by
  have h := SyntaxTree.lower_eq_of_redrawn _ _ "" 1 redrawnList_veiledScript
  have htruncated : ((veiledScript [] [] []).lower "" 1).truncated = true := rfl
  exact ⟨redrawnList_veiledScript, h.1, htruncated, h.2.1 ▸ htruncated⟩

end ScriptTriage

import Mathlib.Data.List.Forall2
import ScriptTriage.Proofs.Lowering.Descent
import ScriptTriage.Walk

/-
Comments and redundant parentheses. `Padded parens t t'` says that `t'` is `t` with comments put in among the children
of any nodes but string literals, and, if `parens` allows it, with expressions put in parentheses, any number of them
and with comments inside; everything that was there keeps its kind and its place.

- `layer_padded`: a layer over padded trees is the same, if what it descends into is lowered to the same.
- `node_commented`: comments alone change nothing, whatever the budget, and nothing about what is cut.
- `node_padded`: parentheses cost levels and do nothing else: if the padded tree is not cut, the bare one is not cut
  either, and they are lowered to the same.
- `lower_eq_of_padded`: so comments and redundant parentheses hide nothing from the walk.
-/

namespace ScriptTriage

/-! ## Padded trees -/

/-- is it a child that counts, and no comment and no mere mark? -/
def Tree.isItem (t : Tree) : Bool := t.named && !t.extra

/-- the places of expressions: the children of a node of kind `parent` that play this role -/
def expressionPlace (parent : Kind) (role : Option Role) : Bool :=
  match parent with
  | .expressionStatement | .returnStatement | .arguments | .parenthesizedExpression => true
  | .variableDeclarator => role == some .value
  | .assignmentExpression | .augmentedAssignmentExpression => role == some .left || role == some .right
  | .callExpression => role == some .function
  | .ifStatement => role == some .condition
  | _ => false

mutual

/-- the second tree is the first with comments and, if they are allowed, parentheses put in -/
inductive Padded (parens : Bool) : Tree → Tree → Prop where
  | node {kind named extra role role' span children children'} (h : PaddedChildren parens kind children children') :
    Padded parens (.node kind named extra role span children) (.node kind named extra role' span children')

/-- the same for the children of a node of kind `parent`; a comment plays no role -/
inductive PaddedChildren (parens : Bool) : Kind → List Tree → List Tree → Prop where
  | nil {parent} : PaddedChildren parens parent [] []
  | child {parent c c' cs cs'} (h : PaddedChild parens parent c c') (hs : PaddedChildren parens parent cs cs') :
    PaddedChildren parens parent (c :: cs) (c' :: cs')
  | comment {parent c cs cs'} (hparent : parent ≠ .string) (hextra : c.extra = true) (hrole : c.role = none)
    (hs : PaddedChildren parens parent cs cs') : PaddedChildren parens parent cs (c :: cs')

/-- the same for one child, which keeps its role -/
inductive PaddedChild (parens : Bool) : Kind → Tree → Tree → Prop where
  | keep {parent c c'} (h : Padded parens c c') (hrole : c'.role = c.role) : PaddedChild parens parent c c'
  | enclose {parent c c'} (hplace : expressionPlace parent c.role = true) (h : Enclosed parens c c')
    (hrole : c'.role = c.role) : PaddedChild parens parent c c'

/-- the same in any number of parentheses, each around marks, comments and one expression -/
inductive Enclosed (parens : Bool) : Tree → Tree → Prop where
  | bare {c c'} (h : Padded parens c c') : Enclosed parens c c'
  | wrap {c c' role span before after} (hparens : parens = true) (hitem : c.isItem = true) (h : Enclosed parens c c')
    (hmarks : ∀ x ∈ before ++ after, x.isItem = false) :
    Enclosed parens c (.node .parenthesizedExpression true false role span (before ++ c' :: after))

end

variable {parens : Bool} {parent : Kind} {t t' c c' : Tree} {cs cs' : List Tree}

mutual

theorem Padded.refl (t : Tree) : Padded parens t t := by
  cases t with
  | node kind named extra role span children => exact .node (PaddedChildren.refl kind children)

theorem PaddedChildren.refl (parent : Kind) (cs : List Tree) : PaddedChildren parens parent cs cs := by
  cases cs with
  | nil => exact .nil
  | cons c cs => exact .child (.keep (Padded.refl c) rfl) (PaddedChildren.refl parent cs)

end

theorem Padded.kind_eq (h : Padded parens t t') : t'.kind = t.kind := by
  cases h
  rfl

theorem Padded.named_eq (h : Padded parens t t') : t'.named = t.named := by
  cases h
  rfl

theorem Padded.isItem_eq (h : Padded parens t t') : t'.isItem = t.isItem := by
  cases h
  rfl

theorem Padded.location_eq (h : Padded parens t t') : t'.location = t.location := by
  cases h
  rfl

theorem Padded.text_eq (h : Padded parens t t') (source : String) : t'.text source = t.text source := by
  cases h
  rfl

theorem Padded.paddedChildren (h : Padded parens t t') : PaddedChildren parens t.kind t.children t'.children := by
  cases h with
  | node h => exact h

theorem Enclosed.isItem_eq (h : Enclosed parens c c') : c'.isItem = c.isItem := by
  cases h with
  | bare h => exact h.isItem_eq
  | wrap _ hitem => exact hitem.symm

namespace PaddedChild

theorem enclosed (h : PaddedChild parens parent c c') : Enclosed parens c c' := by
  cases h with
  | keep h => exact .bare h
  | enclose _ h => exact h

theorem padded (h : PaddedChild parens parent c c') (hplace : expressionPlace parent c.role = false) :
    Padded parens c c' := by
  cases h with
  | keep h => exact h
  | enclose hplace' =>
    rw [hplace] at hplace'
    cases hplace'

theorem role_eq (h : PaddedChild parens parent c c') : c'.role = c.role := by
  cases h <;> assumption

theorem isItem_eq (h : PaddedChild parens parent c c') : c'.isItem = c.isItem := h.enclosed.isItem_eq

end PaddedChild

/-! ## Reading the children of a padded node -/

/-- a test that padding does not change, and that comments fail, selects corresponding children -/
theorem PaddedChildren.forall₂_filter (h : PaddedChildren parens parent cs cs') {p : Tree → Bool}
    (hchild : ∀ c c', PaddedChild parens parent c c' → p c' = p c)
    (hcomment : ∀ c, parent ≠ .string → c.extra = true → c.role = none → p c = false) :
    List.Forall₂ (PaddedChild parens parent) (cs.filter p) (cs'.filter p) := by
  induction cs' generalizing cs with
  | nil =>
    cases h
    exact .nil
  | cons c' cs' ih =>
    cases h with
    | child h hs =>
      rw [List.filter_cons, List.filter_cons, hchild _ _ h]
      split
      · exact .cons h (ih hs)
      · exact ih hs
    | comment hparent hextra hrole hs =>
      rw [List.filter_cons_of_neg (by simp [hcomment c' hparent hextra hrole])]
      exact ih hs

theorem rel_head? {α : Type} {r : α → α → Prop} {l l' : List α} (h : List.Forall₂ r l l') :
    Option.Rel r l.head? l'.head? := by
  cases h with
  | nil => exact .none
  | cons h _ => exact .some h

theorem rel_imp {α : Type} {r r' : α → α → Prop} {o o' : Option α} (h : Option.Rel r o o')
    (himp : ∀ a a', o = some a → r a a' → r' a a') : Option.Rel r' o o' := by
  cases h with
  | none => exact .none
  | some h => exact .some (himp _ _ rfl h)

namespace Padded

theorem forall₂_namedChildren (h : Padded parens t t') :
    List.Forall₂ (PaddedChild parens t.kind) t.namedChildren t'.namedChildren :=
  h.paddedChildren.forall₂_filter (fun _ _ hc => hc.isItem_eq) fun c _ hextra _ => by simp [hextra]

theorem forall₂_namedChildren_enclosed (h : Padded parens t t') :
    List.Forall₂ (Enclosed parens) t.namedChildren t'.namedChildren :=
  h.forall₂_namedChildren.imp fun _ _ hc => hc.enclosed

theorem rel_child? (h : Padded parens t t') (role : Role) :
    Option.Rel (PaddedChild parens t.kind) (t.child? role) (t'.child? role) := by
  rw [Tree.child?, Tree.child?, ← List.head?_filter, ← List.head?_filter]
  refine rel_head? (h.paddedChildren.forall₂_filter (fun c c' hc => ?_) fun c _ _ hrole => ?_)
  · rw [hc.role_eq]
  · simp [hrole]

theorem rel_child?_enclosed (h : Padded parens t t') (role : Role) :
    Option.Rel (Enclosed parens) (t.child? role) (t'.child? role) :=
  rel_imp (h.rel_child? role) fun _ _ _ hc => hc.enclosed

/-- a child in a role that is no place of an expression stays without parentheses -/
theorem rel_child?_padded (h : Padded parens t t') (role : Role) (hplace : expressionPlace t.kind (some role) = false) :
    Option.Rel (Padded parens) (t.child? role) (t'.child? role) := by
  refine rel_imp (h.rel_child? role) fun c c' hfound hc => hc.padded ?_
  have hrole : c.role = some role := by simpa using List.find?_some hfound
  rw [hrole, hplace]

end Padded

namespace Lowering

/-! ## What lowering reads of a padded node -/

section Reading

variable {β : Type} {r : Tree → Tree → Prop} {o o' : Option Tree} {l l' : List Tree} {f g : Tree → β}

theorem map_eq_of_rel (h : Option.Rel r o o') (hfg : ∀ a a', a' ∈ o'.toList → r a a' → f a = g a') :
    o.map f = o'.map g := by
  cases h with
  | none => rfl
  | some h => exact congrArg some (hfg _ _ (by simp) h)

theorem map_eq_of_forall₂ (h : List.Forall₂ r l l') (hfg : ∀ a a', a' ∈ l' → r a a' → f a = g a') :
    l.map f = l'.map g := by
  induction h with
  | nil => rfl
  | cons h _ ih =>
    rw [List.map_cons, List.map_cons, hfg _ _ List.mem_cons_self h,
      ih fun a a' ha' => hfg a a' (List.mem_cons_of_mem _ ha')]

theorem rel_filter {p : Tree → Bool} (h : Option.Rel r o o') (hp : ∀ a a', r a a' → p a' = p a) :
    Option.Rel r (o.filter p) (o'.filter p) := by
  cases h with
  | none => exact .none
  | some h =>
    rw [Option.filter_some, Option.filter_some, hp _ _ h]
    split
    · exact .some h
    · exact .none

theorem forall₂_items (h : Option.Rel (Padded parens) o o') :
    List.Forall₂ (Enclosed parens) ((o.map (·.namedChildren)).getD []) ((o'.map (·.namedChildren)).getD []) := by
  cases h with
  | none => exact .nil
  | some h => exact h.forall₂_namedChildren_enclosed

theorem rel_elseStatement? (h : Padded parens t t') :
    Option.Rel (Enclosed parens) (elseStatement? t) (elseStatement? t') := by
  unfold elseStatement?
  rw [h.kind_eq]
  split
  · exact rel_head? h.forall₂_namedChildren_enclosed
  · exact .some (.bare h)

theorem rel_bind_elseStatement? (h : Option.Rel (Padded parens) o o') :
    Option.Rel (Enclosed parens) (o.bind elseStatement?) (o'.bind elseStatement?) := by
  cases h with
  | none => exact .none
  | some h => exact rel_elseStatement? h

end Reading

theorem rel_functionBody? (h : Padded parens t t') (hplace : expressionPlace t.kind (some .body) = false) :
    Option.Rel (Padded parens) (functionBody? t) (functionBody? t') :=
  rel_filter (h.rel_child?_padded .body hplace) fun _ _ hc => by rw [hc.kind_eq]

theorem forall₂_parameters (h : Padded parens t t') (hplace : expressionPlace t.kind (some .parameters) = false) :
    List.Forall₂ (Enclosed parens) (parameters t) (parameters t') :=
  forall₂_items (h.rel_child?_padded .parameters hplace)

theorem forall₂_arguments (h : Padded parens t t') (hplace : expressionPlace t.kind (some .arguments) = false) :
    List.Forall₂ (Enclosed parens) (arguments t) (arguments t') :=
  forall₂_items (rel_filter (h.rel_child?_padded .arguments hplace) fun _ _ hc => by rw [hc.kind_eq])

theorem rel_alternative? (h : Padded parens t t') (hplace : expressionPlace t.kind (some .alternative) = false) :
    Option.Rel (Enclosed parens) (alternative? t) (alternative? t') :=
  rel_bind_elseStatement? (h.rel_child?_padded .alternative hplace)

theorem forall₂_declarators (h : Padded parens t t') (hplace : ∀ role, expressionPlace t.kind role = false) :
    List.Forall₂ (Padded parens) (declarators t) (declarators t') := by
  have hrel : List.Forall₂ (PaddedChild parens t.kind) (declarators t) (declarators t') := by
    unfold declarators Tree.namedChildren
    rw [List.filter_filter, List.filter_filter]
    refine h.paddedChildren.forall₂_filter (fun c c' hc => ?_) fun c _ hextra _ => by simp [hextra]
    have hitem : (c'.named && !c'.extra) = (c.named && !c.extra) := hc.isItem_eq
    rw [(hc.padded (hplace c.role)).kind_eq, hitem]
  exact hrel.imp fun c c' hc => hc.padded (hplace c.role)

theorem roleText_padded (h : Padded parens t t') (source : String) (role : Role)
    (hplace : expressionPlace t.kind (some role) = false) : roleText source t role = roleText source t' role :=
  map_eq_of_rel (h.rel_child?_padded role hplace) fun _ _ _ hc => (hc.text_eq source).symm

theorem identifier_padded (h : Padded parens t t') (source : String) : identifier source t = identifier source t' := by
  rw [identifier, identifier, h.text_eq, h.location_eq]

theorem other_padded (h : Padded parens t t') : other t = other t' := by
  rw [other, other, h.kind_eq, h.location_eq]

theorem loop_padded (h : Padded parens t t') (kind : LoopKind) (hplace : expressionPlace t.kind (some .body) = false) :
    loop kind t = loop kind t' := by
  unfold loop
  rw [map_eq_of_rel (h.rel_child?_padded .body hplace) fun _ _ _ hc => other_padded hc, h.location_eq]

/-- in a string literal comments would count, and none are put in -/
theorem segments_padded (h : Padded parens t t') (source : String) (hk : t.kind = .string) :
    segments source t = segments source t' := by
  have hpadded : ∀ c c', PaddedChild parens t.kind c c' → Padded parens c c' :=
    fun c c' hc => hc.padded (by rw [hk]; rfl)
  have hrel : List.Forall₂ (PaddedChild parens t.kind) (t.children.filter (·.named)) (t'.children.filter (·.named)) :=
    h.paddedChildren.forall₂_filter (fun c c' hc => (hpadded c c' hc).named_eq) fun _ hne => absurd hk hne
  unfold segments
  refine map_eq_of_forall₂ hrel fun c c' _ hc => ?_
  rw [(hpadded c c' hc).kind_eq, (hpadded c c' hc).text_eq]

theorem literal_padded (h : Padded parens t t') (source : String) : literal source t = literal source t' := by
  have hvalue : literalValue source t = literalValue source t' := by
    unfold literalValue
    rw [h.kind_eq]
    cases hk : t.kind with
    | string =>
      dsimp only
      rw [segments_padded h source hk]
    | number =>
      dsimp only
      rw [h.text_eq]
    | regex =>
      dsimp only
      rw [roleText_padded h source .pattern (by rw [hk]; rfl), roleText_padded h source .flags (by rw [hk]; rfl)]
    | _ => rfl
  unfold literal
  rw [hvalue, h.text_eq, h.location_eq]

/-! ## One layer over a padded tree -/

variable {source : String} {below below' child child' grandchild grandchild' : Tree → Lowered Node}

theorem declarator_padded (h : Padded parens t t')
    (hbelow : ∀ c c', c' ∈ declaratorParts t' → Enclosed parens c c' → below c = below' c') :
    declarator below t = declarator below' t' := by
  have hpart : ∀ role, (∀ c' ∈ (t'.child? role).toList, c' ∈ declaratorParts t') →
      (t.child? role).map below = (t'.child? role).map below' :=
    fun role hrole => map_eq_of_rel (h.rel_child?_enclosed role) fun c c' hc' hc => hbelow c c' (hrole c' hc') hc
  unfold declarator
  rw [hpart .name fun c' hc' => List.mem_append_left _ hc', hpart .value fun c' hc' => List.mem_append_right _ hc',
    h.location_eq]

theorem block_padded (h : Padded parens t t')
    (hbelow : ∀ c c', c' ∈ t'.namedChildren → Enclosed parens c c' → below c = below' c') :
    block below t = block below' t' := by
  unfold block
  rw [map_eq_of_forall₂ h.forall₂_namedChildren_enclosed hbelow, h.location_eq]

/-- a layer over a padded tree is the same, if what it descends into is lowered to the same -/
theorem layer_padded (h : Padded parens t t')
    (hnear : ∀ c c', c' ∈ near t' → Enclosed parens c c' → child c = child' c')
    (hfar : ∀ c c', c' ∈ far t' → Enclosed parens c c' → grandchild c = grandchild' c') :
    layer source child grandchild t = layer source child' grandchild' t' := by
  unfold near at hnear
  unfold far at hfar
  unfold layer
  rw [h.kind_eq] at hnear hfar ⊢
  rw [h.location_eq]
  cases hk : t.kind with
  | variableDeclaration | lexicalDeclaration =>
    simp only [hk] at hfar ⊢
    have hplace : ∀ role, expressionPlace t.kind role = false := fun _ => by rw [hk]; rfl
    have hparts := map_eq_of_forall₂ (forall₂_declarators h hplace) fun d d' hd' hd =>
      declarator_padded hd fun c c' hc' => hfar c c' (List.mem_flatMap.2 ⟨d', hd', hc'⟩)
    rw [hparts, declarationKind, declarationKind, roleText_padded h source .kind (hplace _)]
  | functionDeclaration | generatorFunctionDeclaration =>
    simp only [hk] at hnear hfar ⊢
    have hplace : ∀ role, expressionPlace t.kind role = false := fun _ => by rw [hk]; rfl
    have hname := map_eq_of_rel (h.rel_child?_padded .name (hplace _)) fun _ _ _ hc => identifier_padded hc source
    have hbody := map_eq_of_rel (rel_functionBody? h (hplace _)) fun b b' hb' hb =>
      block_padded hb fun c c' hc' => hfar c c' (List.mem_flatMap.2 ⟨b', hb', hc'⟩)
    rw [hname, map_eq_of_forall₂ (forall₂_parameters h (hplace _)) hnear, hbody]
  | expressionStatement | returnStatement =>
    simp only [hk] at hnear ⊢
    rw [map_eq_of_rel (rel_head? h.forall₂_namedChildren_enclosed) hnear]
  | ifStatement =>
    simp only [hk] at hnear hfar ⊢
    rw [map_eq_of_rel (h.rel_child?_enclosed .condition) fun c c' hc' => hnear c c' (List.mem_append_left _ hc'),
      map_eq_of_rel (h.rel_child?_enclosed .consequence) fun c c' hc' => hnear c c' (List.mem_append_right _ hc'),
      map_eq_of_rel (rel_alternative? h (by rw [hk]; rfl)) hfar]
  | forStatement | whileStatement | doStatement =>
    dsimp only
    rw [loop_padded h _ (by rw [hk]; rfl)]
  | forInStatement =>
    dsimp only
    rw [loop_padded h _ (by rw [hk]; rfl), loopKindOfIn, loopKindOfIn,
      roleText_padded h source .operator (by rw [hk]; rfl)]
  | statementBlock =>
    simp only [hk] at hnear ⊢
    rw [block_padded h hnear]
  | assignmentExpression | augmentedAssignmentExpression =>
    simp only [hk] at hnear ⊢
    have hoperator : assignmentOperator source t = assignmentOperator source t' := by
      rw [assignmentOperator, assignmentOperator, h.kind_eq, roleText_padded h source .operator (by rw [hk]; rfl)]
    rw [map_eq_of_rel (h.rel_child?_enclosed .left) fun c c' hc' => hnear c c' (List.mem_append_left _ hc'),
      map_eq_of_rel (h.rel_child?_enclosed .right) fun c c' hc' => hnear c c' (List.mem_append_right _ hc'), hoperator]
  | callExpression =>
    simp only [hk] at hnear hfar ⊢
    rw [map_eq_of_rel (h.rel_child?_enclosed .function) hnear,
      map_eq_of_forall₂ (forall₂_arguments h (by rw [hk]; rfl)) hfar]
  | parenthesizedExpression =>
    simp only [hk] at hnear ⊢
    have hinner := rel_head? h.forall₂_namedChildren_enclosed
    generalize t.namedChildren.head? = inner, t'.namedChildren.head? = inner' at hinner hnear ⊢
    cases hinner with
    | none => exact congrArg Lowered.whole (other_padded h)
    | some hc => exact hnear _ _ (by simp) hc
  | identifier | undefined =>
    dsimp only
    rw [identifier_padded h]
  | string | number | trueLiteral | falseLiteral | null | regex =>
    dsimp only
    rw [literal_padded h]
  | _ =>
    dsimp only
    rw [other_padded h]

/-! ## Whole padded trees -/

/-- parentheses cost one level and leave nothing behind -/
theorem layer_parenthesized (source : String) (below deeper : Tree → Lowered Node)
    (hk : t.kind = .parenthesizedExpression) (hinner : t.namedChildren.head? = some c) :
    layer source below deeper t = below c := by
  simp only [layer, hk, hinner]

theorem node_wrap (source : String) (budget : Nat) {role : Option Role} {span : Span} {before after : List Tree}
    (hmarks : ∀ x ∈ before ++ after, x.isItem = false) (hc : c.isItem = true) :
    node source (budget + 1) (.node .parenthesizedExpression true false role span (before ++ c :: after)) =
      node source budget c := by
  have hbefore : before.filter Tree.isItem = [] :=
    List.filter_eq_nil_iff.2 fun x hx => by simp [hmarks x (List.mem_append_left _ hx)]
  have hinner : ((before ++ c :: after).filter Tree.isItem).head? = some c := by
    rw [List.filter_append, hbefore, List.nil_append, List.filter_cons_of_pos hc, List.head?_cons]
  rw [node_succ]
  exact layer_parenthesized source _ _ rfl hinner

theorem node_commented (source : String) (budget : Nat) (h : Enclosed false c c') :
    node source budget c = node source budget c' := by
  induction budget using Nat.strongRecOn generalizing c c' with
  | ind budget ih =>
    cases h with
    | wrap hparens => cases hparens
    | bare h =>
      cases budget with
      | zero =>
        rw [node, cut, cut, placeholder, placeholder, h.location_eq]
      | succ budget =>
        rw [node_succ, node_succ]
        exact layer_padded h (fun _ _ _ hc => ih budget (by omega) hc) (fun _ _ _ hc => ih (budget - 1) (by omega) hc)

theorem node_padded (source : String) (budget : Nat) (h : Enclosed parens c c')
    (hwhole : (node source budget c').truncated = false) : node source budget c = node source budget c' := by
  induction budget using Nat.strongRecOn generalizing c c' with
  | ind budget ih =>
    cases budget with
    | zero => cases hwhole
    | succ budget =>
      cases h with
      | bare h =>
        rw [node_succ, truncated_layer, Bool.or_eq_false_iff, List.any_eq_false, List.any_eq_false] at hwhole
        rw [node_succ, node_succ]
        exact layer_padded h
          (fun c c' hc' hc => ih budget (by omega) hc (by simpa using hwhole.1 c' hc'))
          (fun c c' hc' hc => ih (budget - 1) (by omega) hc (by simpa using hwhole.2 c' hc'))
      | @wrap _ inner _ _ _ _ _ hitem h hmarks =>
        rw [node_wrap source budget hmarks (h.isItem_eq.trans hitem)] at hwhole ⊢
        have hnode := ih budget (by omega) h hwhole
        -- the bare tree is not cut one level further down, so the level that the parentheses cost makes no difference
        have hdemand : demand c ≤ budget := by
          rw [← hnode, ← Bool.not_eq_true, truncated_node] at hwhole
          omega
        exact (node_eq_of_demand_le source (by omega) hdemand).trans hnode

end Lowering

/-! ## Scripts with comments and parentheses -/

namespace SyntaxTree

variable {tree tree' : SyntaxTree}

theorem lower_padded (h : Padded parens tree.root tree'.root) (source : String) (d : Nat)
    (hwhole : (tree'.lower source d).truncated = false) : (tree.lower source d).body = (tree'.lower source d).body := by
  have hnodes : ∀ c' ∈ tree'.root.namedChildren, (Lowering.node source d c').truncated = false := by
    simpa [lower] using hwhole
  unfold lower
  rw [Lowering.map_eq_of_forall₂ h.forall₂_namedChildren_enclosed fun c c' hc' hc =>
    Lowering.node_padded source d hc (hnodes c' hc')]

/-- **Comments and redundant parentheses are invisible.** Put comments and parentheses into the tree of a script: if
neither tree is cut by its depth limit, the programs are equal, and so is whatever a walk makes of them. Comments
alone make no difference under any limit, and none to what is cut. -/
theorem lower_eq_of_padded (tree tree' : SyntaxTree) (source : String) :
    (Padded true tree.root tree'.root → ∀ d d',
      (tree.lower source d).truncated = false → (tree'.lower source d').truncated = false →
        (tree.lower source d).body = (tree'.lower source d').body ∧
        ∀ {σ : Type} (cfg : WalkConfig σ) (sink : σ),
          Walk.program cfg (tree.lower source d).body sink = Walk.program cfg (tree'.lower source d').body sink) ∧
    (Padded false tree.root tree'.root → ∀ d,
      (tree.lower source d).body = (tree'.lower source d).body ∧
      (tree.lower source d).truncated = (tree'.lower source d).truncated) := by
  refine ⟨fun h d d' hd hd' => ?_, fun h d => ?_⟩
  · have hdemand : tree.criticalDepth ≤ d := by
      rw [← Bool.not_eq_true, truncated_lower] at hd
      omega
    have hdemand' : tree'.criticalDepth ≤ d' := by
      rw [← Bool.not_eq_true, truncated_lower] at hd'
      omega
    -- both programs are those of the larger limit
    have hmax := tree.lower_eq_of_criticalDepth_le source hdemand (hdemand.trans (Nat.le_max_left d d'))
    have hmax' := tree'.lower_eq_of_criticalDepth_le source hdemand' (hdemand'.trans (Nat.le_max_right d d'))
    have hbody : (tree.lower source d).body = (tree'.lower source d').body := by
      rw [hmax, hmax']
      exact lower_padded h source _ (by rw [← hmax']; exact hd')
    exact ⟨hbody, fun cfg sink => by rw [hbody]⟩
  · have hnodes : tree.root.namedChildren.map (Lowering.node source d) =
        tree'.root.namedChildren.map (Lowering.node source d) :=
      Lowering.map_eq_of_forall₂ h.forall₂_namedChildren_enclosed fun _ _ _ hc => Lowering.node_commented source d hc
    unfold lower
    rw [hnodes]
    exact ⟨rfl, rfl⟩

end SyntaxTree

/-! ### A call behind parentheses -/

/-- a stretch of the first line -/
def onFirstLine (start stop : Nat) : Span := ⟨⟨0, start, start⟩, ⟨0, stop, stop⟩⟩

/-- a mark in the first line -/
def markAt (text : String) (start : Nat) : Tree :=
  .node (.other text) false false none (onFirstLine start (start + 1)) []

/-- the name `run` of `(run)(/**/('AB'))`, in a role or in none -/
def runName (role : Option Role) : Tree := .node .identifier true false role (onFirstLine 1 4) []

/-- the literal of `(run)(/**/('AB'))` -/
def payload : Tree :=
  .node .string true false none (onFirstLine 11 15)
    [markAt "'" 11, .node (.other "string_fragment") true false none (onFirstLine 12 14) [], markAt "'" 14]

/-- the script whose only statement is a call -/
def callScript (callee : Tree) (arguments : List Tree) : SyntaxTree :=
  { root := .node (.other "program") true false none (onFirstLine 0 17)
      [.node .expressionStatement true false none (onFirstLine 0 17)
        [.node .callExpression true false none (onFirstLine 0 17)
          [callee, .node .arguments true false (some .arguments) (onFirstLine 5 17) arguments]]]
    hasErrors := false }

def parenthesized (role : Option Role) (start stop : Nat) (inner : Tree) : Tree :=
  .node .parenthesizedExpression true false role (onFirstLine start (stop + 1))
    ([markAt "(" start] ++ inner :: [markAt ")" stop])

/-- the comment of `(run)(/**/('AB'))` -/
def emptyComment : Tree := .node (.other "comment") true true none (onFirstLine 6 10) []

/-- the call without its comment and its redundant parentheses -/
def bareCall : SyntaxTree := callScript (runName (some .function)) [markAt "(" 5, payload, markAt ")" 16]

/-- the call with its comment only -/
def commentedCall : SyntaxTree :=
  callScript (runName (some .function)) [markAt "(" 5, emptyComment, payload, markAt ")" 16]

/-- the call with all of them -/
def paddedCall : SyntaxTree :=
  callScript (parenthesized (some .function) 0 4 (runName none))
    [markAt "(" 5, emptyComment, parenthesized none 10 15 payload, markAt ")" 16]

theorem padded_callScript {arguments arguments' : List Tree} (hcallee : PaddedChild parens .callExpression c c')
    (harguments : PaddedChildren parens .arguments arguments arguments') :
    Padded parens (callScript c arguments).root (callScript c' arguments').root := by
  refine .node (.child (.keep (.node (.child (.keep (.node ?_) rfl) .nil)) rfl) .nil)
  exact .child hcallee (.child (.keep (.node harguments) rfl) .nil)

theorem padded_commentedArguments (h : PaddedChild parens .arguments payload c) :
    PaddedChildren parens .arguments [markAt "(" 5, payload, markAt ")" 16]
      [markAt "(" 5, emptyComment, c, markAt ")" 16] :=
  .child (.keep (.refl _) rfl) (.comment (by decide) rfl rfl (.child h (.child (.keep (.refl _) rfl) .nil)))

theorem enclosed_parenthesized {role : Option Role} {start stop : Nat} (hitem : c.isItem = true)
    (h : Padded true c c') : Enclosed true c (parenthesized role start stop c') :=
  .wrap rfl hitem (.bare h) (by simp [markAt, Tree.isItem, Tree.named])

theorem padded_paddedCall : Padded true bareCall.root paddedCall.root :=
  padded_callScript (.enclose rfl (enclosed_parenthesized rfl (.node .nil)) rfl)
    (padded_commentedArguments (.enclose rfl (enclosed_parenthesized rfl (.refl _)) rfl))

theorem padded_commentedCall : Padded false bareCall.root commentedCall.root :=
  padded_callScript (.keep (.refl _) rfl) (padded_commentedArguments (.keep (.refl _) rfl))

/-- the payload behind a comment and parentheses is found; and under a limit that cuts the payload, the comment makes
no difference -/
theorem lower_eq_of_padded_call :
    Padded true bareCall.root paddedCall.root ∧
    (bareCall.lower "(run)(/**/('AB'))" 4).truncated = false ∧
    (paddedCall.lower "(run)(/**/('AB'))" 5).truncated = false ∧
    (bareCall.lower "(run)(/**/('AB'))" 4).body = (paddedCall.lower "(run)(/**/('AB'))" 5).body ∧
    (Walk.findings 2 (paddedCall.lower "(run)(/**/('AB'))" 5).body).candidates = [.bytes [0x41, 0x42]] ∧
    Padded false bareCall.root commentedCall.root ∧
    (bareCall.lower "(run)(/**/('AB'))" 3).truncated = true ∧
    (bareCall.lower "(run)(/**/('AB'))" 3).body = (commentedCall.lower "(run)(/**/('AB'))" 3).body :=
  ⟨padded_paddedCall, rfl, rfl,
    ((SyntaxTree.lower_eq_of_padded bareCall paddedCall _).1 padded_paddedCall 4 5 rfl rfl).1, by decide,
    padded_commentedCall, rfl,
    ((SyntaxTree.lower_eq_of_padded bareCall commentedCall _).2 padded_commentedCall 3).1⟩

end ScriptTriage

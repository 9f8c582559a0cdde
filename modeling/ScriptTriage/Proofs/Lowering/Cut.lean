import Mathlib.Data.List.Forall2
import ScriptTriage.Proofs.Lowering.Descent
import ScriptTriage.Proofs.Walk.Trace

/-
Two depth limits compared. `Cut n n'` says that `n` is `n'` with parts cut off: placeholders stand in it where `n'`
goes on.

- `cut_layer`, `cut_node`: lowering with a smaller budget gives the same program with parts cut off. Placeholders come
  up wherever lowering descends: targets and values, sides, branches, conditions, arguments, and behind parentheses.
- `ofNode_sublist`, `ofNodes_sublist`: the trace of a program with parts cut off is part of the trace of the program.
  In no place does a placeholder make the walk notice more than what it stands for.
- `findings_within_of_le`: so a higher limit loses no finding.
-/

namespace ScriptTriage

/-! ## Programs with parts cut off -/

mutual

/-- the first node is the second with parts cut off: a placeholder may stand for anything -/
inductive Cut : Node → Node → Prop where
  | placeholder (loc : Option Location) (n : Node) : Cut (.other depthLimitKind loc) n
  | same (n : Node) : Cut n n
  | variableDeclaration {kind loc declarators declarators'} (h : List.Forall₂ CutDeclarator declarators declarators') :
    Cut (.variableDeclaration kind declarators loc) (.variableDeclaration kind declarators' loc)
  | functionDeclaration {id params params' body body' loc} (hparams : List.Forall₂ Cut params params')
    (hbody : Option.Rel CutBlock body body') :
    Cut (.functionDeclaration id params body loc) (.functionDeclaration id params' body' loc)
  | expressionStatement {expression expression' loc} (h : Option.Rel Cut expression expression') :
    Cut (.expressionStatement expression loc) (.expressionStatement expression' loc)
  | ifStatement {test test' consequent consequent' alternate alternate' loc} (htest : Option.Rel Cut test test')
    (hconsequent : Option.Rel Cut consequent consequent') (halternate : Option.Rel Cut alternate alternate') :
    Cut (.ifStatement test consequent alternate loc) (.ifStatement test' consequent' alternate' loc)
  | returnStatement {argument argument' loc} (h : Option.Rel Cut argument argument') :
    Cut (.returnStatement argument loc) (.returnStatement argument' loc)
  | block {b b'} (h : CutBlock b b') : Cut (.block b) (.block b')
  | assignment {operator left left' right right' loc} (hleft : Option.Rel Cut left left')
    (hright : Option.Rel Cut right right') :
    Cut (.assignment operator left right loc) (.assignment operator left' right' loc)
  | call {callee callee' arguments arguments' loc} (hcallee : Option.Rel Cut callee callee')
    (harguments : List.Forall₂ Cut arguments arguments') :
    Cut (.call callee arguments loc) (.call callee' arguments' loc)

inductive CutDeclarator : Declarator → Declarator → Prop where
  | mk {id id' init init' loc} (hid : Option.Rel Cut id id') (hinit : Option.Rel Cut init init') :
    CutDeclarator (.mk id init loc) (.mk id' init' loc)

inductive CutBlock : Block → Block → Prop where
  | mk {body body' loc} (h : List.Forall₂ Cut body body') : CutBlock (.mk body loc) (.mk body' loc)

end

/-! ## A smaller budget cuts -/

namespace Lowering

variable {α : Type} {r : α → α → Prop} {f g : Tree → Lowered α}

theorem forall₂_value_all {l : List Tree} (h : ∀ c ∈ l, r (f c).value (g c).value) :
    List.Forall₂ r (Lowered.all (l.map f)).value (Lowered.all (l.map g)).value := by
  induction l with
  | nil => exact .nil
  | cons c l ih => exact .cons (h c List.mem_cons_self) (ih fun c' hc' => h c' (List.mem_cons_of_mem c hc'))

theorem rel_value_optional {c : Option Tree} (h : ∀ a ∈ c.toList, r (f a).value (g a).value) :
    Option.Rel r (Lowered.optional (c.map f)).value (Lowered.optional (c.map g)).value := by
  cases c with
  | none => exact .none
  | some a => exact .some (h a (by simp))

variable {source : String} {child child' grandchild grandchild' below below' : Tree → Lowered Node} {t : Tree}

theorem cut_declarator (h : ∀ c ∈ declaratorParts t, Cut (below c).value (below' c).value) :
    CutDeclarator (declarator below t).value (declarator below' t).value :=
  .mk (rel_value_optional fun c hc => h c (List.mem_append_left _ hc))
    (rel_value_optional fun c hc => h c (List.mem_append_right _ hc))

theorem cut_block (h : ∀ c ∈ t.namedChildren, Cut (below c).value (below' c).value) :
    CutBlock (block below t).value (block below' t).value :=
  .mk (forall₂_value_all h)

/-- if what a layer descends into is cut, then the layer is the same with parts cut off -/
theorem cut_layer (hnear : ∀ c ∈ near t, Cut (child c).value (child' c).value)
    (hfar : ∀ c ∈ far t, Cut (grandchild c).value (grandchild' c).value) :
    Cut (layer source child grandchild t).value (layer source child' grandchild' t).value := by
  unfold near at hnear
  unfold far at hfar
  unfold layer
  cases hk : t.kind with
  | variableDeclaration | lexicalDeclaration =>
    simp only [hk] at hfar
    exact .variableDeclaration (forall₂_value_all fun d hd => cut_declarator fun c hc =>
      hfar c (List.mem_flatMap.2 ⟨d, hd, hc⟩))
  | functionDeclaration | generatorFunctionDeclaration =>
    simp only [hk] at hnear hfar
    exact .functionDeclaration (forall₂_value_all hnear) (rel_value_optional fun b hb => cut_block fun c hc =>
      hfar c (List.mem_flatMap.2 ⟨b, hb, hc⟩))
  | expressionStatement =>
    simp only [hk] at hnear
    exact .expressionStatement (rel_value_optional hnear)
  | returnStatement =>
    simp only [hk] at hnear
    exact .returnStatement (rel_value_optional hnear)
  | ifStatement =>
    simp only [hk] at hnear hfar
    exact .ifStatement (rel_value_optional fun c hc => hnear c (List.mem_append_left _ hc))
      (rel_value_optional fun c hc => hnear c (List.mem_append_right _ hc)) (rel_value_optional hfar)
  | statementBlock =>
    simp only [hk] at hnear
    exact .block (cut_block hnear)
  | assignmentExpression | augmentedAssignmentExpression =>
    simp only [hk] at hnear
    exact .assignment (rel_value_optional fun c hc => hnear c (List.mem_append_left _ hc))
      (rel_value_optional fun c hc => hnear c (List.mem_append_right _ hc))
  | callExpression =>
    simp only [hk] at hnear hfar
    exact .call (rel_value_optional hnear) (forall₂_value_all hfar)
  | parenthesizedExpression =>
    simp only [hk] at hnear ⊢
    cases hin : t.namedChildren.head? with
    | none => exact .same _
    | some inner => exact hnear inner (by simp [hin])
  | _ => exact .same _

theorem cut_node (source : String) {budget budget' : Nat} (h : budget ≤ budget') (t : Tree) :
    Cut (node source budget t).value (node source budget' t).value := by
  -- strong induction: a layer spends two levels on what is far
  induction budget using Nat.strongRecOn generalizing t budget' with
  | ind budget ih =>
    cases budget with
    | zero => exact .placeholder _ _
    | succ b =>
      obtain ⟨b', rfl⟩ : ∃ b', budget' = b' + 1 := ⟨budget' - 1, by omega⟩
      rw [node_succ, node_succ]
      exact cut_layer (fun c _ => ih b (by omega) (by omega) c) (fun c _ => ih (b - 1) (by omega) (by omega) c)

end Lowering

/-! ## Cutting only loses events -/

namespace Trace

variable {least : Nat} {scope : Scope}

theorem ofLiteralNode_sublist {n n' : Node} (h : Cut n n') :
    (ofLiteralNode least n).Sublist (ofLiteralNode least n') := by
  cases h with
  | same => exact List.Sublist.refl _
  | _ => exact List.nil_sublist _

theorem ofInitialiser_sublist {name : String} {n n' : Node} (h : Cut n n') :
    (ofInitialiser least scope name n).Sublist (ofInitialiser least scope name n') := by
  cases h with
  | same => exact List.Sublist.refl _
  | _ => exact List.nil_sublist _

theorem ofTarget_sublist {n n' : Node} (h : Cut n n') : (ofTarget scope n).Sublist (ofTarget scope n') := by
  cases h with
  | same => exact List.Sublist.refl _
  | _ => exact List.nil_sublist _

theorem ofDeclarator_sublist {d d' : Declarator} (h : CutDeclarator d d') :
    (ofDeclarator least scope d).Sublist (ofDeclarator least scope d') := by
  obtain ⟨hid, hinit⟩ := h
  cases hid with
  | none => exact List.nil_sublist _
  | some hid =>
    cases hid with
    | same =>
      rename_i target
      cases target with
      | identifier i =>
        cases hinit with
        | none => exact List.Sublist.refl _
        | some hinit =>
          exact ((List.Sublist.refl _).append (ofInitialiser_sublist hinit)).cons_cons _
      | _ => exact List.nil_sublist _
    | _ => exact List.nil_sublist _

theorem flatMap_sublist {α : Type} {r : α → α → Prop} {events : α → List Event} {parts parts' : List α}
    (h : List.Forall₂ r parts parts') (hevents : ∀ a a', r a a' → (events a).Sublist (events a')) :
    (parts.flatMap events).Sublist (parts'.flatMap events) := by
  induction h with
  | nil => exact List.Sublist.refl _
  | cons hr _ ih =>
    rw [List.flatMap_cons, List.flatMap_cons]
    exact (hevents _ _ hr).append ih

-- `Cut` is nested in lists and options, so the recursion is on the size of what is cut and not on the relation
mutual

theorem ofNode_sublist {least : Nat} {scope : Scope} {n n' : Node} (h : Cut n n') :
    (ofNode least scope n).Sublist (ofNode least scope n') := by
  cases h with
  | same => exact List.Sublist.refl _
  | variableDeclaration h =>
    rw [ofNode, ofNode]
    exact flatMap_sublist h fun _ _ => ofDeclarator_sublist
  | @functionDeclaration id _ _ _ _ _ _ hbody =>
    cases id with
    | none => exact List.nil_sublist _
    | some id =>
      cases hbody with
      | none => exact List.nil_sublist _
      | some hbody =>
        obtain ⟨hbody⟩ := hbody
        rw [ofNode, ofNode]
        exact ofNodes_sublist hbody
  | expressionStatement h =>
    cases h with
    | none => exact List.nil_sublist _
    | some h =>
      cases h with
      | same => exact List.Sublist.refl _
      | assignment hleft hright =>
        match hleft, hright with
        | .some hleft, .some hright =>
          rw [ofNode, ofNode]
          split
          · exact (((ofTarget_sublist hleft).append (ofNode_sublist hleft)).append (ofNode_sublist hright)).append
              (List.Sublist.refl _)
          · exact List.nil_sublist _
        | .none, _ => exact List.nil_sublist _
        | .some _, .none => exact List.nil_sublist _
      | call _ harguments =>
        rw [ofNode, ofNode]
        exact flatMap_sublist harguments fun _ _ => ofLiteralNode_sublist
      | _ => exact List.nil_sublist _
  | ifStatement _ hconsequent halternate =>
    rw [ofNode, ofNode]
    exact (ofBranch_sublist halternate).append (ofBranch_sublist hconsequent)
  | returnStatement h =>
    cases h with
    | none => exact List.nil_sublist _
    | some h =>
      rw [ofNode, ofNode]
      exact ofLiteralNode_sublist h
  | _ => exact List.nil_sublist _
termination_by sizeOf n

theorem ofNodes_sublist {least : Nat} {scope : Scope} {ns ns' : List Node} (h : List.Forall₂ Cut ns ns') :
    (ofNodes least scope ns).Sublist (ofNodes least scope ns') := by
  cases h with
  | nil => exact List.Sublist.refl _
  | cons h hs =>
    rw [ofNodes, ofNodes]
    exact (ofNode_sublist h).append (ofNodes_sublist hs)
termination_by sizeOf ns

theorem ofBranch_sublist {least : Nat} {scope : Scope} {n n' : Option Node} (h : Option.Rel Cut n n') :
    (ofBranch least scope n).Sublist (ofBranch least scope n') := by
  cases h with
  | none => exact List.nil_sublist _
  | some h =>
    cases h with
    | same => exact List.Sublist.refl _
    | block h =>
      obtain ⟨h⟩ := h
      rw [ofBranch, ofBranch]
      exact ofNodes_sublist h
    | _ => exact List.nil_sublist _
termination_by sizeOf n

end

end Trace

/-! ## A higher limit loses no finding -/

/-- everything found in the first is found in the second -/
structure Findings.Within (f g : Findings) : Prop where
  bindings : f.bindings ⊆ g.bindings
  valueAssignments : f.valueAssignments ⊆ g.valueAssignments
  breakpoints : f.breakpoints ⊆ g.breakpoints
  candidates : f.candidates ⊆ g.candidates

theorem Findings.within_ofEvents {es es' : List Event} (h : es.Sublist es') :
    (Findings.ofEvents es).Within (Findings.ofEvents es') := by
  have hpart : ∀ {α : Type} [DecidableEq α] (part : Event → Option α),
      (es.filterMap part).eraseDups ⊆ (es'.filterMap part).eraseDups := by
    intro α _ part a ha
    rw [List.mem_eraseDups] at ha ⊢
    exact (h.filterMap part).subset ha
  exact ⟨hpart _, hpart _, hpart _, hpart _⟩

/-- **Raising the depth limit loses no finding.** Whatever is found under a limit is found under every higher limit,
and a script that is truncated under the higher limit is truncated under the lower one. -/
theorem SyntaxTree.findings_within_of_le {σ : Type} (tree : SyntaxTree) (source : String) (cfg : WalkConfig σ) (sink : σ)
    {d d' : Nat} (h : d ≤ d') :
    (Walk.program cfg (tree.lower source d).body sink).1.Within (Walk.program cfg (tree.lower source d').body sink).1 ∧
      ((tree.lower source d').truncated = true → (tree.lower source d).truncated = true) := by
  have hcut : List.Forall₂ Cut (tree.lower source d).body (tree.lower source d').body :=
    Lowering.forall₂_value_all fun c _ => Lowering.cut_node source h c
  refine ⟨?_, fun ht => ?_⟩
  · simp only [Walk.program, Walk.findings_walks, List.flatMap_singleton]
    exact Findings.within_ofEvents (Trace.ofNodes_sublist hcut)
  · rw [truncated_lower] at ht ⊢
    omega

/-- the tree of `x = 1` -/
def assignmentScript : SyntaxTree :=
  let token (kind : Kind) (role : Option Role) (start stop : Nat) (children : List Tree) : Tree :=
    .node kind true false role ⟨⟨0, start, start⟩, ⟨0, stop, stop⟩⟩ children
  { root := token (.other "program") none 0 5 [token .expressionStatement none 0 5 [
      token .assignmentExpression none 0 5 [
        token .identifier (some .left) 0 1 [], token .number (some .right) 4 5 []]]]
    hasErrors := false }

/-- both sides of the assignment lie at depth three: under limit two the stop is found, and under limit three the name
is found as well; under limits one and two the script is truncated -/
theorem findings_within_assignmentScript :
    2 ≤ 3 ∧
    (Walk.findings 1 (assignmentScript.lower "x = 1" 2).body).Within
      (Walk.findings 1 (assignmentScript.lower "x = 1" 3).body) ∧
    (Walk.findings 1 (assignmentScript.lower "x = 1" 2).body).breakpoints = [⟨.assignment, 1, .global⟩] ∧
    (Walk.findings 1 (assignmentScript.lower "x = 1" 3).body).bindings = [⟨"x", .global⟩] ∧
    (assignmentScript.lower "x = 1" 1).truncated = true :=
  ⟨by decide, (SyntaxTree.findings_within_of_le assignmentScript "x = 1" ⟨1, .none⟩ () (by decide)).1, rfl, rfl,
    (SyntaxTree.findings_within_of_le assignmentScript "x = 1" ⟨1, .none⟩ () (show 1 ≤ 2 by decide)).2 rfl⟩

end ScriptTriage

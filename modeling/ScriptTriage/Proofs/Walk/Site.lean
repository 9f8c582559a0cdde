import ScriptTriage.Proofs.Walk.Trace

/-
Where the statement lists of a program stand. Besides the list that it is given, a walk enters the bodies of functions
that have a name, the block branches of `if`, and whatever of this kind stands on a side of an assignment that it
follows. A frame is a statement with a gap for such a list, and a site leads through frames to a list at any depth.

- `exists_ofNode_fill`, `exists_ofNodes_plug`: in the trace of the whole, the events of the list at a site are one
  unbroken stretch, and what comes before and behind does not depend on the list. The label of that stretch is the
  name of the innermost function around the site (`Site.scope`): labels replace each other and never add up.
-/

namespace ScriptTriage

/-- a statement with a gap where a statement list stands that a walk enters -/
inductive Frame where
  /-- the gap is the body of a function -/
  | functionBody (id : Identifier) (params : List Node) (bodyLoc loc : Option Location)
  /-- the gap is the block that runs if the test holds -/
  | consequentBlock (test alternate : Option Node) (blockLoc loc : Option Location)
  /-- the gap is the block that runs otherwise -/
  | alternateBlock (test consequent : Option Node) (blockLoc loc : Option Location)
  /-- the gap is inside a node on the left of an assignment -/
  | leftSide (inner : Frame) (operator : AssignmentOperator) (right : Node) (assignmentLoc loc : Option Location)
  /-- the gap is inside a node on the right of an assignment -/
  | rightSide (left : Node) (operator : AssignmentOperator) (inner : Frame) (assignmentLoc loc : Option Location)

namespace Frame

/-- the statement with a list in its gap -/
def fill : Frame → List Node → Node
  | functionBody id params bodyLoc loc, body => .functionDeclaration (some id) params (some (.mk body bodyLoc)) loc
  | consequentBlock test alternate blockLoc loc, body => .ifStatement test (some (.block (.mk body blockLoc))) alternate loc
  | alternateBlock test consequent blockLoc loc, body => .ifStatement test consequent (some (.block (.mk body blockLoc))) loc
  | leftSide inner operator right assignmentLoc loc, body =>
    .expressionStatement (some (.assignment (some operator.token) (some (inner.fill body)) (some right) assignmentLoc)) loc
  | rightSide left operator inner assignmentLoc loc, body =>
    .expressionStatement (some (.assignment (some operator.token) (some left) (some (inner.fill body)) assignmentLoc)) loc

/-- the scope in the gap, if the statement stands in `scope` -/
def scope : Frame → Scope → Scope
  | functionBody id _ _ _, _ => ⟨id.name⟩
  | consequentBlock .., scope => scope
  | alternateBlock .., scope => scope
  | leftSide inner _ _ _ _, scope => inner.scope scope
  | rightSide _ _ inner _ _, scope => inner.scope scope

end Frame

/-- the way from a statement list to itself or to a list inside one of its statements -/
inductive Site where
  | here
  | inside (before : List Node) (frame : Frame) (inner : Site) (after : List Node)

namespace Site

/-- the whole, with a list put at the site -/
def plug : Site → List Node → List Node
  | here, body => body
  | inside before frame inner after, body => before ++ frame.fill (inner.plug body) :: after

/-- the scope at the site, if the whole stands in `scope` -/
def scope : Site → Scope → Scope
  | here, scope => scope
  | inside _ frame inner _, scope => inner.scope (frame.scope scope)

end Site

namespace Trace

theorem mutates_token (operator : AssignmentOperator) : Mutates (some operator.token) := by
  cases operator <;> decide

theorem ofNode_assignment (least : Nat) (scope : Scope) (operator : AssignmentOperator) (left right : Node)
    (assignmentLoc loc : Option Location) :
    ofNode least scope
        (.expressionStatement (some (.assignment (some operator.token) (some left) (some right) assignmentLoc)) loc) =
      ofTarget scope left ++ ofNode least scope left ++ ofNode least scope right ++ stop .assignment loc scope := by
  rw [ofNode, if_pos (mutates_token operator)]

/-- a statement is no plain name -/
theorem ofTarget_fill (scope : Scope) (frame : Frame) (body : List Node) : ofTarget scope (frame.fill body) = [] := by
  cases frame <;> rfl

theorem exists_ofNode_fill (least : Nat) (scope : Scope) (frame : Frame) :
    ∃ before after, ∀ body,
      ofNode least scope (frame.fill body) = before ++ ofNodes least (frame.scope scope) body ++ after := by
  induction frame with
  | functionBody id params bodyLoc loc =>
    refine ⟨[], [], fun body => ?_⟩
    simp only [Frame.fill, Frame.scope, ofNode, List.nil_append, List.append_nil]
  | consequentBlock test alternate blockLoc loc =>
    refine ⟨ofBranch least scope alternate, [], fun body => ?_⟩
    simp only [Frame.fill, Frame.scope, ofNode, ofBranch, List.append_nil]
  | alternateBlock test consequent blockLoc loc =>
    refine ⟨[], ofBranch least scope consequent, fun body => ?_⟩
    simp only [Frame.fill, Frame.scope, ofNode, ofBranch, List.nil_append]
  | leftSide inner operator right assignmentLoc loc ih =>
    obtain ⟨before, after, h⟩ := ih
    refine ⟨before, after ++ ofNode least scope right ++ stop .assignment loc scope, fun body => ?_⟩
    simp only [Frame.fill, Frame.scope, ofNode_assignment, ofTarget_fill, h, List.nil_append, List.append_assoc]
  | rightSide left operator inner assignmentLoc loc ih =>
    obtain ⟨before, after, h⟩ := ih
    refine ⟨ofTarget scope left ++ ofNode least scope left ++ before, after ++ stop .assignment loc scope, fun body => ?_⟩
    simp only [Frame.fill, Frame.scope, ofNode_assignment, h, List.append_assoc]

theorem exists_ofNodes_plug (least : Nat) (scope : Scope) (site : Site) :
    ∃ before after, ∀ body,
      ofNodes least scope (site.plug body) = before ++ ofNodes least (site.scope scope) body ++ after := by
  induction site generalizing scope with
  | here => exact ⟨[], [], fun body => by simp only [Site.plug, Site.scope, List.nil_append, List.append_nil]⟩
  | inside before frame inner after ih =>
    obtain ⟨framed, closed, hframe⟩ := exists_ofNode_fill least scope frame
    obtain ⟨opening, ending, hinner⟩ := ih (frame.scope scope)
    refine ⟨ofNodes least scope before ++ framed ++ opening, ending ++ closed ++ ofNodes least scope after,
      fun body => ?_⟩
    rw [Site.plug, Site.scope, ofNodes_append, ofNodes, hframe, hinner]
    simp only [List.append_assoc]

end Trace

end ScriptTriage

import ScriptTriage.Proofs.Walk.Sink

/-
What a walk does not look at. Erasing a program takes out every node that has no effect and blanks every part that no
handler reads: broken or incomplete statements, conditions, parameters, callees, loop bodies, what declarations start
with, values that are no strings, and nearly all locations.

- `ofNodes_node?`, `ofNodes_nodes`: erasing leaves the trace as it is. A node that is taken out has no events, and what
  is blanked in the others gives none.
- `program_erased`: so the walk over the erased program finds the same, and offers the same to its sink.
-/

namespace ScriptTriage

namespace Erasure

/-! ## Erasing -/

/-- what stands for a part that only has to be there -/
def blank : Node := .other "" none

/-- a name without its place -/
def identifier (i : Identifier) : Identifier := { i with loc := none }

/-- a literal without its place, and without its value if that is no string -/
def literal (l : Literal) : Literal :=
  { l with
    value := match l.value with
      | .string text => .string text
      | _ => .null
    loc := none }

/-- a literal where nothing but a literal is looked at -/
def literalNode? : Node → Option Node
  | .literal l => some (.literal (literal l))
  | _ => none

/-- a declarator; the location stays, for it tells where to stop -/
def declarator? : Declarator → Option Declarator
  | .mk (some (.identifier i)) init loc =>
    some (.mk (some (.identifier (identifier i))) (init.map fun init => (literalNode? init).getD blank) loc)
  | _ => none

/-- the left side of an assignment, of which `rest` is left: a plain name stays -/
def target (left : Node) (rest : Option Node) : Node :=
  match left with
  | .identifier i => .identifier (identifier i)
  | _ => rest.getD blank

mutual

/-- what is left of a node, if anything -/
def node? : Node → Option Node
  | .variableDeclaration _ declarators _ =>
    some (.variableDeclaration .varDeclaration (declarators.filterMap declarator?) none)
  | .functionDeclaration (some id) _ (some (.mk body _)) _ =>
    some (.functionDeclaration (some (identifier id)) [] (some (.mk (nodes body) none)) none)
  | .expressionStatement (some (.assignment operator (some left) (some right) _)) loc =>
    if Trace.Mutates operator then
      some (.expressionStatement
        (some (.assignment operator (some (target left (node? left))) (some ((node? right).getD blank)) none)) loc)
    else none
  | .expressionStatement (some (.call _ arguments _)) loc =>
    match arguments.filterMap literalNode? with
    | [] => none
    | l :: ls => some (.expressionStatement (some (.call none (l :: ls) none)) loc)
  | .ifStatement _ consequent alternate _ => some (.ifStatement none (branch? consequent) (branch? alternate) none)
  | .loop kind _ (some loc) => if kind = .forOf then none else some (.loop kind none (some loc))
  | .returnStatement (some (.literal l)) _ => some (.returnStatement (some (.literal (literal l))) none)
  | .literal l => some (.literal (literal l))
  | _ => none

def nodes : List Node → List Node
  | [] => []
  | n :: ns => (node? n).toList ++ nodes ns

/-- what is left of a branch, which has to be a block -/
def branch? : Option Node → Option Node
  | some (.block (.mk body _)) => some (.block (.mk (nodes body) none))
  | _ => none

end

/-! ## The trace of what is left -/

open Trace

theorem ofLiteral_literal (least : Nat) (l : Literal) : ofLiteral least (literal l) = ofLiteral least l := by
  obtain ⟨value, raw, loc⟩ := l
  cases value <;> rfl

/-- if each part keeps its events, so do all of them together -/
theorem flatMap_filterMap {α : Type} {keep : α → Option α} {events : α → List Event}
    (h : ∀ a, (keep a).toList.flatMap events = events a) (parts : List α) :
    (parts.filterMap keep).flatMap events = parts.flatMap events := by
  induction parts with
  | nil => rfl
  | cons a parts ih =>
    have ha := h a
    rw [List.filterMap_cons, List.flatMap_cons, ← ih, ← ha]
    cases keep a with
    | none => rfl
    | some b => rw [Option.toList_some, List.flatMap_singleton, List.flatMap_cons]

theorem flatMap_literalNode? (least : Nat) (n : Node) :
    (literalNode? n).toList.flatMap (ofLiteralNode least) = ofLiteralNode least n := by
  cases n with
  | literal l =>
    rw [literalNode?, Option.toList_some, List.flatMap_singleton]
    exact ofLiteral_literal least l
  | _ => rfl

theorem ofInitialiser_erased (least : Nat) (scope : Scope) (name : String) (init : Node) :
    ofInitialiser least scope name ((literalNode? init).getD blank) = ofInitialiser least scope name init := by
  cases init with
  | literal l =>
    rw [literalNode?, Option.getD_some, ofInitialiser, ofInitialiser, ofLiteral_literal]
    rfl
  | _ => rfl

theorem flatMap_declarator? (least : Nat) (scope : Scope) (d : Declarator) :
    (declarator? d).toList.flatMap (ofDeclarator least scope) = ofDeclarator least scope d := by
  obtain ⟨id, init, loc⟩ := d
  cases id with
  | none => rfl
  | some name =>
    cases name with
    | identifier i =>
      rw [declarator?, Option.toList_some, List.flatMap_singleton]
      cases init with
      | none => rfl
      | some init =>
        simp only [Option.map_some, ofDeclarator, Declarator.id, Declarator.init, Declarator.loc, identifier,
          ofInitialiser_erased]
    | _ => rfl

/-- what is left of a node, or stands for it, is no plain name -/
theorem ofTarget_getD_blank (scope : Scope) (n : Node) : ofTarget scope ((node? n).getD blank) = [] := by
  fun_cases node? n <;> rfl

theorem ofTarget_target (scope : Scope) (left : Node) :
    ofTarget scope (target left (node? left)) = ofTarget scope left := by
  have hnone := ofTarget_getD_blank scope left
  cases left with
  | identifier i => rfl
  | _ => exact hnone

/-- the events of a side that may have been blanked -/
theorem ofNode_getD (least : Nat) (scope : Scope) (rest : Option Node) :
    ofNode least scope (rest.getD blank) = ofNodes least scope rest.toList := by
  cases rest with
  | none => rfl
  | some kept => rw [Option.getD_some, Option.toList_some, ofNodes_singleton]

theorem ofNode_getD_blank {least : Nat} {scope : Scope} {n : Node} {rest : Option Node}
    (h : ofNodes least scope rest.toList = ofNode least scope n) :
    ofNode least scope (rest.getD blank) = ofNode least scope n := by
  rw [ofNode_getD, h]

theorem ofNode_target {least : Nat} {scope : Scope} {left : Node} {rest : Option Node}
    (h : ofNodes least scope rest.toList = ofNode least scope left) :
    ofNode least scope (target left rest) = ofNode least scope left := by
  cases left with
  | identifier i => rfl
  | _ => exact ofNode_getD_blank h

mutual

theorem ofNodes_node? (least : Nat) (scope : Scope) (n : Node) :
    ofNodes least scope (node? n).toList = ofNode least scope n := by
  cases n with
  | variableDeclaration kind declarators loc =>
    rw [node?, Option.toList_some, ofNodes_singleton, ofNode, ofNode, flatMap_filterMap (flatMap_declarator? least scope)]
  | functionDeclaration id params body loc =>
    match id, body with
    | some id, some (.mk body _) =>
      rw [node?, Option.toList_some, ofNodes_singleton, ofNode, ofNode, ofNodes_nodes, identifier]
    | some _, none => rfl
    | none, some _ => rfl
    | none, none => rfl
  | expressionStatement expression loc =>
    cases expression with
    | none => rfl
    | some e =>
      cases e with
      | assignment operator left right aloc =>
        match left, right with
        | some left, some right =>
          rw [node?, ofNode]
          by_cases h : Mutates operator
          · rw [if_pos h, if_pos h, Option.toList_some, ofNodes_singleton, ofNode, if_pos h, ofTarget_target,
              ofNode_target (ofNodes_node? least scope left), ofNode_getD_blank (ofNodes_node? least scope right)]
          · rw [if_neg h, if_neg h]
            rfl
        | some _, none => rfl
        | none, _ => rfl
      | call callee arguments cloc =>
        rw [node?, ofNode, ← flatMap_filterMap (flatMap_literalNode? least) arguments]
        -- without a literal among its arguments the call is taken out
        split
        · rename_i hnone
          rw [hnone]
          rfl
        · rename_i l ls hsome
          rw [hsome, Option.toList_some, ofNodes_singleton, ofNode]
      | _ => rfl
  | ifStatement test consequent alternate loc =>
    rw [node?, Option.toList_some, ofNodes_singleton, ofNode, ofNode, ofBranch_branch?, ofBranch_branch?]
  | loop kind body loc =>
    cases loc with
    | none =>
      rw [ofNode]
      split <;> rfl
    | some loc =>
      rw [node?, ofNode]
      by_cases h : kind = .forOf
      · rw [if_pos h, if_pos h]
        rfl
      · rw [if_neg h, if_neg h, Option.toList_some, ofNodes_singleton, ofNode, if_neg h]
  | returnStatement argument loc =>
    cases argument with
    | none => rfl
    | some argument =>
      cases argument with
      | literal l =>
        rw [node?, Option.toList_some, ofNodes_singleton, ofNode, ofNode]
        exact ofLiteral_literal least l
      | _ => rfl
  | literal l => rw [node?, Option.toList_some, ofNodes_singleton, ofNode, ofNode, ofLiteral_literal]
  | _ => rfl

theorem ofNodes_nodes (least : Nat) (scope : Scope) (ns : List Node) :
    ofNodes least scope (nodes ns) = ofNodes least scope ns := by
  cases ns with
  | nil => rfl
  | cons n ns => rw [nodes, ofNodes_append, ofNodes, ofNodes_node?, ofNodes_nodes least scope ns]

theorem ofBranch_branch? (least : Nat) (scope : Scope) (branch : Option Node) :
    ofBranch least scope (branch? branch) = ofBranch least scope branch := by
  cases branch with
  | none => rfl
  | some n =>
    cases n with
    | block b =>
      obtain ⟨body, loc⟩ := b
      rw [branch?, ofBranch, ofBranch, ofNodes_nodes]
    | _ => rfl

end

end Erasure

/-- **What is not looked at has no effect.** Walk a program after everything is erased in it that is broken, incomplete or
not read: every list of findings is the same, and the sink, whatever it answers, is offered the same candidates in the
same order and is left in the same state. -/
theorem Walk.program_erased {σ : Type} (cfg : WalkConfig σ) (body : List Node) (state : σ) :
    Walk.program cfg (Erasure.nodes body) state = Walk.program cfg body state ∧
      Trace.candidates cfg.leastLength (Erasure.nodes body) = Trace.candidates cfg.leastLength body := by
  have htrace := Erasure.ofNodes_nodes cfg.leastLength .global body
  have hoffers : Trace.candidates cfg.leastLength (Erasure.nodes body) = Trace.candidates cfg.leastLength body := by
    rw [Trace.candidates, htrace, Trace.candidates]
  refine ⟨Prod.ext ?_ ?_, hoffers⟩
  · rw [Walk.program, Walk.program, Walk.findings_walk, Walk.findings_walk, htrace]
  · rw [Walk.sink_program, Walk.sink_program, hoffers]

-- `if (x) y; else { return; while (x) {} }` keeps its loop, and that without a body
example (x y : Identifier) (loc : Location) :
    Erasure.nodes [.ifStatement (some (.identifier x)) (some (.expressionStatement (some (.identifier y)) (some loc)))
      (some (.block (.mk [.returnStatement none (some loc), .loop .whileLoop (some (.block (.mk [] none))) (some loc)]
        (some loc)))) (some loc)] =
      [.ifStatement none none (some (.block (.mk [.loop .whileLoop none (some loc)] none))) none] := rfl

end ScriptTriage

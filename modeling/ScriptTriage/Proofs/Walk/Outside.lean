import ScriptTriage.Proofs.Walk.Erasure
import ScriptTriage.Proofs.Walk.Rearrangement

/-
What stands outside all functions.

A scope is a label: the name of the innermost function around a finding, or the word for the global scope. Nothing keeps
a function from having that word as its name, and then what stands in it cannot be told from what stands outside.

- `Splits`: the events of a program are those of the program without its functions, in the same order, and among them
  those of each function without the functions inside it. The former all carry the scope of the program, and the latter
  the name of their function (`splits_ofNodes`).
- `global_findings`: the global findings are those outside functions, if no function has the name of the global scope;
  in any case, all further ones stand in a function of that name.
-/

namespace ScriptTriage

/-- the scope of what is noticed; a candidate has none -/
def Event.scope? : Event → Option Scope
  | .binding b => some b.scope
  | .valueAssignment v => some v.scope
  | .breakpoint b => some b.scope
  | .candidate _ => none

/-- a function with a name and a body, which a walk enters -/
structure NamedFunction where
  name : String
  body : List Node

namespace Outside

/-! ## Functions, and a program without them -/

mutual

/-- the functions that a walk enters from a node, those inside other functions included -/
def functionsOf : Node → List NamedFunction
  | .functionDeclaration (some id) _ (some (.mk body _)) _ => ⟨id.name, body⟩ :: functionsIn body
  | .expressionStatement (some (.assignment operator (some left) (some right) _)) _ =>
    if Trace.Mutates operator then functionsOf left ++ functionsOf right else []
  | .ifStatement _ consequent alternate _ => functionsInBranch alternate ++ functionsInBranch consequent
  | _ => []

def functionsIn : List Node → List NamedFunction
  | [] => []
  | n :: ns => functionsOf n ++ functionsIn ns

/-- the functions that a walk enters from a branch that is a block -/
def functionsInBranch : Option Node → List NamedFunction
  | some (.block (.mk body _)) => functionsIn body
  | _ => []

end

mutual

/-- a node without the functions that a walk visits from it, unless it is a function itself; a side of an assignment
cannot be left out, so a function in its place becomes a node that nobody looks at -/
def node? : Node → Option Node
  | .functionDeclaration .. => none
  | .expressionStatement (some (.assignment operator (some left) (some right) assignmentLoc)) loc =>
    if Trace.Mutates operator then
      some (.expressionStatement (some (.assignment operator (some ((node? left).getD Erasure.blank))
        (some ((node? right).getD Erasure.blank)) assignmentLoc)) loc)
    else some (.expressionStatement (some (.assignment operator (some left) (some right) assignmentLoc)) loc)
  | .ifStatement test consequent alternate loc => some (.ifStatement test (branch consequent) (branch alternate) loc)
  | n => some n

def nodes : List Node → List Node
  | [] => []
  | n :: ns => (node? n).toList ++ nodes ns

def branch : Option Node → Option Node
  | some (.block (.mk body loc)) => some (.block (.mk (nodes body) loc))
  | other => other

end

/-! ## Events and their scopes -/

open Trace

/-- every event that has a scope has this one -/
def ScopedIn (scope : Scope) (es : List Event) : Prop := ∀ e ∈ es, ∀ s, e.scope? = some s → s = scope

section ScopedIn

variable (least : Nat) (scope : Scope)

theorem ScopedIn.nil {scope : Scope} : ScopedIn scope [] := by
  intro e he
  cases he

theorem ScopedIn.append {scope : Scope} {es es' : List Event} (h : ScopedIn scope es) (h' : ScopedIn scope es') :
    ScopedIn scope (es ++ es') := by
  intro e he
  rcases List.mem_append.1 he with he | he
  · exact h e he
  · exact h' e he

theorem ScopedIn.flatMap {α : Type} {scope : Scope} {events : α → List Event} (h : ∀ a, ScopedIn scope (events a))
    (parts : List α) : ScopedIn scope (parts.flatMap events) := by
  intro e he
  obtain ⟨a, -, ha⟩ := List.mem_flatMap.1 he
  exact h a e ha

theorem scopedIn_stop (kind : BreakpointKind) (loc : Option Location) : ScopedIn scope (stop kind loc scope) := by
  cases loc <;> simp [ScopedIn, stop, Event.scope?]

theorem scopedIn_ofLiteral (l : Literal) : ScopedIn scope (ofLiteral least l) := by
  obtain ⟨value, raw, loc⟩ := l
  cases value <;> simp [ScopedIn, ofLiteral, Event.scope?]

theorem scopedIn_ofLiteralNode (n : Node) : ScopedIn scope (ofLiteralNode least n) := by
  cases n with
  | literal l => exact scopedIn_ofLiteral least scope l
  | _ => exact .nil

theorem scopedIn_ofInitialiser (name : String) (init : Node) : ScopedIn scope (ofInitialiser least scope name init) := by
  cases init with
  | literal l =>
    refine ScopedIn.append ?_ (scopedIn_ofLiteral least scope l)
    simp [ScopedIn, Event.scope?]
  | _ => exact .nil

theorem scopedIn_ofTarget (target : Node) : ScopedIn scope (ofTarget scope target) := by
  cases target <;> simp [ScopedIn, ofTarget, Event.scope?]

theorem scopedIn_ofDeclarator (d : Declarator) : ScopedIn scope (ofDeclarator least scope d) := by
  obtain ⟨id, init, loc⟩ := d
  cases id with
  | none => exact .nil
  | some target =>
    cases target with
    | identifier i =>
      have hname := scopedIn_ofTarget scope (.identifier i)
      cases init with
      | none => exact hname
      | some init =>
        exact hname.append ((scopedIn_stop scope .assignment loc).append (scopedIn_ofInitialiser least scope i.name init))
    | _ => exact .nil

end ScopedIn

/-! ## The events outside functions and those inside -/

/-- `es` is made up of `outer`, in the same order, and of `inner`, in some order; what is outer has this scope -/
structure Splits (scope : Scope) (es outer inner : List Event) : Prop where
  sublist : outer.Sublist es
  perm : es.Perm (outer ++ inner)
  scopedIn : ScopedIn scope outer

namespace Splits

variable {scope : Scope} {es es' outer outer' inner inner' : List Event}

theorem nil : Splits scope [] [] [] := ⟨List.Sublist.refl [], by simp, .nil⟩

/-- nothing is inside a function -/
theorem own (h : ScopedIn scope es) : Splits scope es es [] :=
  ⟨List.Sublist.refl es, by simp, h⟩

theorem append (h : Splits scope es outer inner) (h' : Splits scope es' outer' inner') :
    Splits scope (es ++ es') (outer ++ outer') (inner ++ inner') := by
  refine ⟨h.sublist.append h'.sublist, (h.perm.append h'.perm).trans ?_, h.scopedIn.append h'.scopedIn⟩
  simp only [List.append_assoc]
  refine List.Perm.append_left outer ?_
  rw [← List.append_assoc, ← List.append_assoc]
  exact List.perm_append_comm.append_right inner'

/-- what is read off events one by one, and from the outer ones alone, comes in the order of the outer ones -/
theorem filterMap_eq {α : Type} (h : Splits scope es outer inner) {part : Event → Option α}
    (hinner : ∀ e ∈ inner, part e = none) : es.filterMap part = outer.filterMap part := by
  have hnone : inner.filterMap part = [] := List.filterMap_eq_nil_iff.2 hinner
  have hlength := (h.perm.filterMap part).length_eq
  rw [List.filterMap_append, hnone, List.append_nil] at hlength
  exact ((h.sublist.filterMap part).eq_of_length hlength.symm).symm

end Splits

/-- the events of a function, without those of the functions inside it -/
def ownEvents (least : Nat) (f : NamedFunction) : List Event := ofNodes least ⟨f.name⟩ (nodes f.body)

theorem ofTarget_getD_blank (scope : Scope) (left : Node) :
    ofTarget scope ((node? left).getD Erasure.blank) = ofTarget scope left := by
  fun_cases node? left <;> rfl

theorem splits_of_kept {least : Nat} {scope : Scope} {n : Node} (hnode : node? n = some n) (hnone : functionsOf n = [])
    (h : ScopedIn scope (ofNode least scope n)) :
    Splits scope (ofNode least scope n) (ofNodes least scope (node? n).toList)
      ((functionsOf n).flatMap (ownEvents least)) := by
  rw [hnode, hnone, Option.toList_some, ofNodes_singleton]
  exact .own h

/-- in the place of a function nothing is left; its own events are among those of the functions -/
theorem Splits.ofFunction {least : Nat} {scope : Scope} {f : NamedFunction}
    (h : Splits ⟨f.name⟩ (ofNodes least ⟨f.name⟩ f.body) (ofNodes least ⟨f.name⟩ (nodes f.body))
      ((functionsIn f.body).flatMap (ownEvents least))) :
    Splits scope (ofNodes least ⟨f.name⟩ f.body) [] ((f :: functionsIn f.body).flatMap (ownEvents least)) := by
  refine ⟨List.nil_sublist _, ?_, .nil⟩
  rw [List.nil_append, List.flatMap_cons]
  exact h.perm

mutual

theorem splits_ofNode (least : Nat) (scope : Scope) (n : Node) :
    Splits scope (ofNode least scope n) (ofNodes least scope (node? n).toList)
      ((functionsOf n).flatMap (ownEvents least)) := by
  cases n with
  | variableDeclaration kind declarators loc =>
    refine splits_of_kept (by simp only [node?]) (by simp only [functionsOf]) ?_
    rw [ofNode]
    exact .flatMap (scopedIn_ofDeclarator least scope) declarators
  | functionDeclaration id params body loc =>
    match id, body with
    | some id, some (.mk body _) =>
      simp only [ofNode, node?, functionsOf, Option.toList_none, ofNodes]
      exact .ofFunction (f := ⟨id.name, body⟩) (splits_ofNodes least ⟨id.name⟩ body)
    | some _, none => exact .nil
    | none, some _ => exact .nil
    | none, none => exact .nil
  | expressionStatement expression loc =>
    cases expression with
    | none => exact .nil
    | some e =>
      cases e with
      | assignment operator left right aloc =>
        match left, right with
        | some left, some right =>
          have hleft := splits_ofNode least scope left
          have hright := splits_ofNode least scope right
          have htarget := Splits.own (scopedIn_ofTarget scope left)
          have hstop := Splits.own (scopedIn_stop scope .assignment loc)
          rw [ofNode, node?, functionsOf]
          by_cases h : Mutates operator
          · have hsides := ((htarget.append hleft).append hright).append hstop
            simp only [if_pos h, Option.toList_some, ofNodes_singleton, ofNode, ofTarget_getD_blank, Erasure.ofNode_getD,
              List.flatMap_append]
            simpa using hsides
          · simp only [if_neg h, Option.toList_some, ofNodes_singleton, ofNode]
            exact .nil
        | some _, none => exact .nil
        | none, _ => exact .nil
      | call callee arguments cloc =>
        refine splits_of_kept (by simp only [node?]) (by simp only [functionsOf]) ?_
        rw [ofNode]
        exact .flatMap (scopedIn_ofLiteralNode least scope) arguments
      | _ => exact .nil
  | ifStatement test consequent alternate loc =>
    have halternate := splits_ofBranch least scope alternate
    have hconsequent := splits_ofBranch least scope consequent
    simp only [ofNode, node?, functionsOf, Option.toList_some, ofNodes_singleton, List.flatMap_append]
    exact halternate.append hconsequent
  | loop kind body loc =>
    refine splits_of_kept (by simp only [node?]) (by simp only [functionsOf]) ?_
    rw [ofNode]
    split
    · exact .nil
    · exact scopedIn_stop scope .loop loc
  | returnStatement argument loc =>
    refine splits_of_kept (by simp only [node?]) (by simp only [functionsOf]) ?_
    cases argument with
    | none => exact .nil
    | some argument =>
      rw [ofNode]
      exact scopedIn_ofLiteralNode least scope argument
  | literal l =>
    refine splits_of_kept (by simp only [node?]) (by simp only [functionsOf]) ?_
    rw [ofNode]
    exact scopedIn_ofLiteral least scope l
  | _ => exact .nil

theorem splits_ofNodes (least : Nat) (scope : Scope) (ns : List Node) :
    Splits scope (ofNodes least scope ns) (ofNodes least scope (nodes ns))
      ((functionsIn ns).flatMap (ownEvents least)) := by
  cases ns with
  | nil => exact .nil
  | cons n ns =>
    rw [ofNodes, nodes, functionsIn, ofNodes_append, List.flatMap_append]
    exact (splits_ofNode least scope n).append (splits_ofNodes least scope ns)

theorem splits_ofBranch (least : Nat) (scope : Scope) (b : Option Node) :
    Splits scope (ofBranch least scope b) (ofBranch least scope (branch b))
      ((functionsInBranch b).flatMap (ownEvents least)) := by
  cases b with
  | none => exact .nil
  | some n =>
    cases n with
    | block b =>
      obtain ⟨body, loc⟩ := b
      rw [ofBranch, branch, functionsInBranch, ofBranch]
      exact splits_ofNodes least scope body
    | _ => exact .nil

end

/-! ## Global findings -/

theorem isGlobal_iff (scope : Scope) : scope.isGlobal = true ↔ scope = .global := by
  obtain ⟨label⟩ := scope
  simp [Scope.isGlobal, Scope.global]

theorem scopedIn_ownEvents (least : Nat) (f : NamedFunction) : ScopedIn ⟨f.name⟩ (ownEvents least f) :=
  (splits_ofNodes least ⟨f.name⟩ f.body).scopedIn

section Parts

-- one of the three kinds of findings that have a scope
variable {α : Type} {part : Event → Option α} {scopeOf : α → Scope}
  (hscope : ∀ e a, part e = some a → e.scope? = some (scopeOf a))

include hscope

theorem filterMap_filter_isGlobal (least : Nat) {body : List Node}
    (h : ∀ f ∈ functionsIn body, f.name ≠ Scope.global.label) :
    ((ofNodes least .global body).filterMap part).filter (fun a => (scopeOf a).isGlobal) =
      (ofNodes least .global (nodes body)).filterMap part := by
  have hsplits := splits_ofNodes least .global body
  have hinner : ∀ e ∈ (functionsIn body).flatMap (ownEvents least),
      (part e).filter (fun a => (scopeOf a).isGlobal) = none := by
    intro e he
    obtain ⟨f, hf, hown⟩ := List.mem_flatMap.1 he
    cases ha : part e with
    | none => rfl
    | some a =>
      have hlabel : scopeOf a = ⟨f.name⟩ := scopedIn_ownEvents least f e hown _ (hscope e a ha)
      have hne : ¬(scopeOf a).isGlobal = true := by
        rw [isGlobal_iff, hlabel]
        exact fun heq => h f hf (congrArg Scope.label heq)
      simp [hne]
  rw [List.filter_filterMap, hsplits.filterMap_eq hinner, ← List.filter_filterMap, List.filter_eq_self]
  intro a ha
  obtain ⟨e, he, hpart⟩ := List.mem_filterMap.1 ha
  rw [isGlobal_iff]
  exact hsplits.scopedIn e he _ (hscope e a hpart)

theorem mem_filterMap_and_isGlobal_iff (least : Nat) (body : List Node) (a : α) :
    (a ∈ (ofNodes least .global body).filterMap part ∧ (scopeOf a).isGlobal = true) ↔
      a ∈ (ofNodes least .global (nodes body)).filterMap part ∨
        ∃ f ∈ functionsIn body, f.name = Scope.global.label ∧
          a ∈ (ofNodes least .global (nodes f.body)).filterMap part := by
  have hsplits := splits_ofNodes least .global body
  simp only [List.mem_filterMap, isGlobal_iff, hsplits.perm.mem_iff, List.mem_append, List.mem_flatMap]
  constructor
  · rintro ⟨⟨e, he, ha⟩, hglobal⟩
    rcases he with he | ⟨f, hf, hown⟩
    · exact .inl ⟨e, he, ha⟩
    · have hlabel : scopeOf a = ⟨f.name⟩ := scopedIn_ownEvents least f e hown _ (hscope e a ha)
      have hname : f.name = Scope.global.label := congrArg Scope.label (hlabel.symm.trans hglobal)
      rw [ownEvents, hname] at hown
      exact .inr ⟨f, hf, hname, e, hown, ha⟩
  · rintro (⟨e, he, ha⟩ | ⟨f, hf, hname, e, he, ha⟩)
    · exact ⟨⟨e, .inl he, ha⟩, hsplits.scopedIn e he _ (hscope e a ha)⟩
    · have hown : e ∈ ownEvents least f := by
        rw [ownEvents, hname]
        exact he
      refine ⟨⟨e, .inr ⟨f, hf, hown⟩, ha⟩, ?_⟩
      rw [scopedIn_ownEvents least f e hown _ (hscope e a ha), hname]

end Parts

theorem scope?_of_binding? (e : Event) (b : Binding) (h : e.binding? = some b) : e.scope? = some b.scope := by
  cases e <;> simp_all [Event.binding?, Event.scope?]

theorem scope?_of_valueAssignment? (e : Event) (v : ValueAssignment) (h : e.valueAssignment? = some v) :
    e.scope? = some v.scope := by
  cases e <;> simp_all [Event.valueAssignment?, Event.scope?]

theorem scope?_of_breakpoint? (e : Event) (b : Breakpoint) (h : e.breakpoint? = some b) :
    e.scope? = some b.scope := by
  cases e <;> simp_all [Event.breakpoint?, Event.scope?]

end Outside

open Outside (functionsIn)

/-- **Global findings stand outside functions.** If no function that a walk enters has the name of the global scope, then
the bindings, literal initialisers and stops whose scope is global are those of the program without its functions, in
the same order. Whatever the functions are called, these are among the global findings, and all others stand in the body
of a function with the name of the global scope, outside the functions inside it. -/
theorem Walk.global_findings {σ : Type} (cfg : WalkConfig σ) (body : List Node) (sink : σ) :
    let found (ns : List Node) : Findings := (Walk.program cfg ns sink).1
    let outer := found (Outside.nodes body)
    ((∀ f ∈ functionsIn body, f.name ≠ Scope.global.label) →
      (found body).bindings.filter (·.scope.isGlobal) = outer.bindings ∧
      (found body).valueAssignments.filter (·.scope.isGlobal) = outer.valueAssignments ∧
      (found body).breakpoints.filter (·.scope.isGlobal) = outer.breakpoints) ∧
    (∀ b, (b ∈ (found body).bindings ∧ b.scope.isGlobal = true) ↔ b ∈ outer.bindings ∨
      ∃ f ∈ functionsIn body, f.name = Scope.global.label ∧ b ∈ (found (Outside.nodes f.body)).bindings) ∧
    (∀ v, (v ∈ (found body).valueAssignments ∧ v.scope.isGlobal = true) ↔ v ∈ outer.valueAssignments ∨
      ∃ f ∈ functionsIn body, f.name = Scope.global.label ∧ v ∈ (found (Outside.nodes f.body)).valueAssignments) ∧
    (∀ b, (b ∈ (found body).breakpoints ∧ b.scope.isGlobal = true) ↔ b ∈ outer.breakpoints ∨
      ∃ f ∈ functionsIn body, f.name = Scope.global.label ∧ b ∈ (found (Outside.nodes f.body)).breakpoints) := by
  intro found outer
  have hfound (ns : List Node) : found ns = Findings.ofEvents (Trace.ofNodes cfg.leastLength .global ns) :=
    Walk.findings_walk cfg .global ns sink
  have houter : outer = found (Outside.nodes body) := rfl
  simp only [houter, hfound, Findings.ofEvents, List.mem_eraseDups]
  refine ⟨fun hnames => ⟨?_, ?_, ?_⟩, ?_, ?_, ?_⟩
  · rw [← OrderedSet.eraseDups_filter, Outside.filterMap_filter_isGlobal Outside.scope?_of_binding? _ hnames]
  · rw [← OrderedSet.eraseDups_filter, Outside.filterMap_filter_isGlobal Outside.scope?_of_valueAssignment? _ hnames]
  · rw [← OrderedSet.eraseDups_filter, Outside.filterMap_filter_isGlobal Outside.scope?_of_breakpoint? _ hnames]
  · exact Outside.mem_filterMap_and_isGlobal_iff Outside.scope?_of_binding? cfg.leastLength body
  · exact Outside.mem_filterMap_and_isGlobal_iff Outside.scope?_of_valueAssignment? cfg.leastLength body
  · exact Outside.mem_filterMap_and_isGlobal_iff Outside.scope?_of_breakpoint? cfg.leastLength body

/-! ### Two scripts -/

/-- functions in a branch, in a function and behind both -/
def layeredScript : List Node :=
  [assignmentOn 1 "a",
    guarded [functionOf "outer" [assignmentOn 3 "b", functionOf "inner" [assignmentOn 4 "a"]], assignmentOn 6 "c"],
    functionOf "last" [assignmentOn 8 "c"], assignmentOn 9 "a"]

/-- a function with the name of the global scope, in front of what is outside -/
def namesakeScript : List Node := [functionOf "global" [assignmentOn 1 "b"], assignmentOn 2 "a", assignmentOn 3 "b"]

/-- in the first script the global findings are those outside functions. In the second one there is a stop more, and the
bindings come in another order. -/
theorem global_findings_twoScripts :
    (∀ f ∈ functionsIn layeredScript, f.name ≠ Scope.global.label) ∧
    (Walk.findings 1 layeredScript).bindings.filter (·.scope.isGlobal) =
      (Walk.findings 1 (Outside.nodes layeredScript)).bindings ∧
    (Walk.findings 1 (Outside.nodes layeredScript)).bindings = [⟨"a", .global⟩, ⟨"c", .global⟩] ∧
    (Walk.findings 1 namesakeScript).bindings.filter (·.scope.isGlobal) = [⟨"b", .global⟩, ⟨"a", .global⟩] ∧
    (Walk.findings 1 (Outside.nodes namesakeScript)).bindings = [⟨"a", .global⟩, ⟨"b", .global⟩] ∧
    ⟨.assignment, 1, .global⟩ ∈ (Walk.findings 1 namesakeScript).breakpoints ∧
    ⟨.assignment, 1, .global⟩ ∉ (Walk.findings 1 (Outside.nodes namesakeScript)).breakpoints := by
  have hnames : ∀ f ∈ functionsIn layeredScript, f.name ≠ Scope.global.label := by
    have hfunctions : (functionsIn layeredScript).map (·.name) = ["outer", "inner", "last"] := rfl
    intro f hf
    have hname := List.mem_map_of_mem (f := NamedFunction.name) hf
    rw [hfunctions] at hname
    exact ne_of_mem_of_not_mem hname (by decide)
  have hlayered := (Walk.global_findings ⟨1, .none⟩ layeredScript ()).1 hnames
  exact ⟨hnames, hlayered.1, rfl, rfl, rfl, by decide, by decide⟩

end ScriptTriage

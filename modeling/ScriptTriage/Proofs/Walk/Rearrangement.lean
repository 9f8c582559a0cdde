import ScriptTriage.Proofs.Walk.Site

/-
The order of statements. Which findings a program has does not depend on the order of its statements, nor on how deep
its functions are nested: a function gives its own name to what stands in it, whatever stands around it. Only the
order of the findings changes.

- `Move`: one statement list at any depth is put in another order, or one function is taken out of where it stands and
  put at the end of the program.
- `Move.perm_ofNodes`: a move puts the events of the trace in another order. None is lost and none is added, because
  the events of a function are the same in every scope.
- `Rearranged.perm_ofNodes`, `sameEntries_of_rearranged`: so do any number of moves, and the findings stay the same
  as sets.
-/

namespace ScriptTriage

/-- one way to rearrange a program -/
inductive Move : List Node → List Node → Prop where
  /-- the statements of one list that the walk enters change places -/
  | permute (site : Site) {statements statements' : List Node} (h : statements.Perm statements') :
    Move (site.plug statements) (site.plug statements')
  /-- a function leaves its list for the end of the program -/
  | hoist (site : Site) (before after : List Node) (id : Identifier) (params : List Node) (body : Block)
      (loc : Option Location) :
    Move (site.plug (before ++ .functionDeclaration (some id) params (some body) loc :: after))
      (site.plug (before ++ after) ++ [.functionDeclaration (some id) params (some body) loc])

/-- any number of moves, one after the other -/
inductive Rearranged : List Node → List Node → Prop where
  | refl (body : List Node) : Rearranged body body
  | step {body next last : List Node} (h : Move body next) (hs : Rearranged next last) : Rearranged body last

/-- the same findings as sets, in whatever order -/
structure Findings.SameEntries (f g : Findings) : Prop where
  bindings : ∀ b, b ∈ f.bindings ↔ b ∈ g.bindings
  valueAssignments : ∀ v, v ∈ f.valueAssignments ↔ v ∈ g.valueAssignments
  breakpoints : ∀ b, b ∈ f.breakpoints ↔ b ∈ g.breakpoints
  candidates : ∀ c, c ∈ f.candidates ↔ c ∈ g.candidates

namespace Trace

/-- the events of a function carry its own name, so the scope around it leaves no trace -/
theorem ofNode_functionDeclaration (least : Nat) (scope scope' : Scope) (id : Identifier) (params : List Node)
    (body : Block) (loc : Option Location) :
    ofNode least scope (.functionDeclaration (some id) params (some body) loc) =
      ofNode least scope' (.functionDeclaration (some id) params (some body) loc) := by
  obtain ⟨statements, bodyLoc⟩ := body
  rw [ofNode, ofNode]

theorem perm_ofNodes_of_perm (least : Nat) (scope : Scope) {ns ns' : List Node} (h : ns.Perm ns') :
    (ofNodes least scope ns).Perm (ofNodes least scope ns') := by
  rw [ofNodes_eq_flatMap, ofNodes_eq_flatMap]
  exact h.flatMap_right _

end Trace

open Trace (ofNodes)

theorem Move.perm_ofNodes {body body' : List Node} (h : Move body body') (least : Nat) (scope : Scope) :
    (ofNodes least scope body).Perm (ofNodes least scope body') := by
  cases h with
  | permute site h =>
    obtain ⟨before, after, hplug⟩ := Trace.exists_ofNodes_plug least scope site
    rw [hplug, hplug]
    exact ((Trace.perm_ofNodes_of_perm least _ h).append_left before).append_right after
  | hoist site front back id params body loc =>
    obtain ⟨before, after, hplug⟩ := Trace.exists_ofNodes_plug least scope site
    have hfunction := Trace.ofNode_functionDeclaration least (site.scope scope) scope id params body loc
    rw [Trace.ofNodes_append, Trace.ofNodes_singleton, hplug, hplug, Trace.ofNodes_append, Trace.ofNodes_append, ofNodes,
      hfunction]
    simp only [List.append_assoc]
    -- the events of the function go behind those of the statements that followed it, and behind all further ones
    refine List.Perm.append_left before (List.Perm.append_left _ ?_)
    rw [← List.append_assoc _ after]
    exact List.perm_append_comm

theorem Rearranged.perm_ofNodes {body body' : List Node} (h : Rearranged body body') (least : Nat) (scope : Scope) :
    (ofNodes least scope body).Perm (ofNodes least scope body') := by
  induction h with
  | refl body => exact List.Perm.refl _
  | step h _ ih => exact (h.perm_ofNodes least scope).trans ih

/-- the findings of a trace and of the same events in another order are the same lists up to order -/
theorem perm_eraseDups_filterMap {α : Type} [DecidableEq α] {es es' : List Event} (h : es.Perm es')
    (part : Event → Option α) : (es.filterMap part).eraseDups.Perm (es'.filterMap part).eraseDups := by
  refine (List.perm_ext_iff_of_nodup (OrderedSet.nodup_eraseDups _) (OrderedSet.nodup_eraseDups _)).2 fun a => ?_
  rw [List.mem_eraseDups, List.mem_eraseDups]
  exact (h.filterMap part).mem_iff

/-- **Findings as sets depend neither on statement order nor on function nesting.** Put the statements of any list that
the walk enters in another order, take any function out of any such list and put it at the end of the program, and do
so as often as you like: the bindings, literal initialisers, stops and candidates are the same sets, and the four lists
are as long as before. -/
theorem Walk.sameEntries_of_rearranged {σ : Type} (cfg : WalkConfig σ) (state : σ) {body body' : List Node}
    (h : Rearranged body body') :
    let f := (Walk.program cfg body state).1
    let f' := (Walk.program cfg body' state).1
    f.SameEntries f' ∧
      f.bindings.length = f'.bindings.length ∧ f.valueAssignments.length = f'.valueAssignments.length ∧
      f.breakpoints.length = f'.breakpoints.length ∧ f.candidates.length = f'.candidates.length := by
  intro f f'
  have hf : f = Findings.ofEvents (ofNodes cfg.leastLength .global body) := Walk.findings_walk cfg .global body state
  have hf' : f' = Findings.ofEvents (ofNodes cfg.leastLength .global body') := Walk.findings_walk cfg .global body' state
  have hevents := h.perm_ofNodes cfg.leastLength .global
  have hbindings := perm_eraseDups_filterMap hevents Event.binding?
  have hvalues := perm_eraseDups_filterMap hevents Event.valueAssignment?
  have hstops := perm_eraseDups_filterMap hevents Event.breakpoint?
  have hcandidates := perm_eraseDups_filterMap hevents Event.candidate?
  rw [hf, hf']
  refine ⟨⟨fun _ => hbindings.mem_iff, fun _ => hvalues.mem_iff, fun _ => hstops.mem_iff,
    fun _ => hcandidates.mem_iff⟩, ?_⟩
  exact ⟨hbindings.length_eq, hvalues.length_eq, hstops.length_eq, hcandidates.length_eq⟩

/-! ### A function two levels down -/

/-- `name = "name"` on a line -/
def assignmentOn (line : Nat) (name : String) : Node :=
  .expressionStatement (some (.assignment (some "=") (some (.identifier ⟨name, none⟩))
    (some (.literal ⟨.string name, none, none⟩)) none)) (some ⟨line, 0, line, 8⟩)

def functionOf (name : String) (body : List Node) : Node :=
  .functionDeclaration (some ⟨name, none⟩) [] (some (.mk body none)) none

/-- an `if` without an alternative -/
def guarded (body : List Node) : Node := .ifStatement none (some (.block (.mk body none))) none none

/-- `inner` stands in a branch in the body of `outer` -/
def nestedScript : List Node :=
  [functionOf "outer" [guarded [functionOf "inner" [assignmentOn 1 "a"], assignmentOn 2 "b"], assignmentOn 3 "c"]]

/-- `inner` stands behind `outer`, and two statements of `outer` have changed places -/
def flatScript : List Node :=
  [functionOf "outer" [assignmentOn 3 "c", guarded [assignmentOn 2 "b"]], functionOf "inner" [assignmentOn 1 "a"]]

theorem rearranged_nestedScript : Rearranged nestedScript flatScript := by
  let outer : Frame := .functionBody ⟨"outer", none⟩ [] none none
  let branch : Site := .inside [] (.consequentBlock none none none none) .here [assignmentOn 3 "c"]
  refine .step (.hoist (.inside [] outer branch []) [] [assignmentOn 2 "b"] ⟨"inner", none⟩ []
    (.mk [assignmentOn 1 "a"] none) none) ?_
  refine .step (.permute (.inside [] outer .here [functionOf "inner" [assignmentOn 1 "a"]])
    (List.Perm.swap (assignmentOn 3 "c") (guarded [assignmentOn 2 "b"]) [])) ?_
  exact .refl flatScript

/-- the order of the bindings does change -/
theorem sameEntries_of_rearranged_nestedScript :
    Rearranged nestedScript flatScript ∧
    (Walk.findings 1 nestedScript).SameEntries (Walk.findings 1 flatScript) ∧
    (Walk.findings 1 nestedScript).bindings.length = (Walk.findings 1 flatScript).bindings.length ∧
    (Walk.findings 1 nestedScript).bindings = [⟨"a", ⟨"inner"⟩⟩, ⟨"b", ⟨"outer"⟩⟩, ⟨"c", ⟨"outer"⟩⟩] ∧
    (Walk.findings 1 flatScript).bindings = [⟨"c", ⟨"outer"⟩⟩, ⟨"b", ⟨"outer"⟩⟩, ⟨"a", ⟨"inner"⟩⟩] := by
  have h := Walk.sameEntries_of_rearranged ⟨1, .none⟩ () rearranged_nestedScript
  exact ⟨rearranged_nestedScript, h.1, h.2.1, rfl, rfl⟩

end ScriptTriage

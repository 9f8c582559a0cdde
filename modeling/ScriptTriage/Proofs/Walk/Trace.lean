import ScriptTriage.Proofs.OrderedSet
import ScriptTriage.Walk

/-
The trace of a walk: the events of a program in depth-first order, written down without a state.

What a piece of program makes the walk notice is a list of events, put together from the lists of its parts:
- a declaration gives, for each declarator of a plain name, the binding, then for an initialiser the stop at the end
  of the declarator, the literal as written and its candidate;
- a function declaration with a name and a body gives the events of the body, under the function's own name;
- an assignment statement with a mutating operator and both sides gives the binding of a plain name on the left, the
  events of the left side, those of the right side, and the stop at the end of the statement;
- a call statement gives the candidates of its literal arguments, a `return` that of its literal;
- an `if` gives the events of its block branches, the alternative first; a loop, unless it runs over values, a stop.

Results:
- `visit_eq_foldl_see`, `visitAll_eq_foldl_see`: visiting is seeing the events of the trace one by one.
- `findings_walks`: the four lists of one or more walks, each in its own scope, are what erasing repeats leaves of the
  four kinds of events of their traces.
- `program_findings_eq`: the same for the walk over a program.
-/

namespace ScriptTriage

/-! ## Events -/

inductive Event where
  | binding (b : Binding)
  | valueAssignment (v : ValueAssignment)
  | breakpoint (b : Breakpoint)
  | candidate (c : Candidate)
deriving DecidableEq, Repr

namespace Event

def binding? : Event → Option Binding
  | .binding b => some b
  | _ => none

def valueAssignment? : Event → Option ValueAssignment
  | .valueAssignment v => some v
  | _ => none

def breakpoint? : Event → Option Breakpoint
  | .breakpoint b => some b
  | _ => none

def candidate? : Event → Option Candidate
  | .candidate c => some c
  | _ => none

end Event

/-- the four kinds of events of a trace, each without its repeats, in the order of first occurrence -/
def Findings.ofEvents (es : List Event) : Findings :=
  { bindings := (es.filterMap Event.binding?).eraseDups
    valueAssignments := (es.filterMap Event.valueAssignment?).eraseDups
    breakpoints := (es.filterMap Event.breakpoint?).eraseDups
    candidates := (es.filterMap Event.candidate?).eraseDups }

namespace Trace

/-! ## The trace -/

/-- the tokens of the operators that mutate their target -/
def mutatingTokens : List String := ["=", "+=", "-=", "*=", "/=", "%=", "<<=", ">>=", ">>>=", "|=", "^=", "&="]

/-- is there an operator, and does it mutate its target? -/
def Mutates (operator : Option String) : Prop := ∃ token ∈ mutatingTokens, operator = some token

instance (operator : Option String) : Decidable (Mutates operator) :=
  inferInstanceAs (Decidable (∃ token ∈ mutatingTokens, operator = some token))

/-- the stop at the last line of a location, if there is a location -/
def stop (kind : BreakpointKind) (loc : Option Location) (scope : Scope) : List Event :=
  loc.toList.map fun loc => .breakpoint ⟨kind, loc.endLine, scope⟩

/-- the candidate in a literal: a string that is long enough -/
def ofLiteral (least : Nat) (l : Literal) : List Event :=
  match l.value with
  | .string text => (Candidate.extract? text least).toList.map .candidate
  | _ => []

def ofLiteralNode (least : Nat) : Node → List Event
  | .literal l => ofLiteral least l
  | _ => []

/-- the initialiser of `name`: it is kept as written if it is a literal -/
def ofInitialiser (least : Nat) (scope : Scope) (name : String) : Node → List Event
  | .literal l => (l.raw.toList.map fun raw => .valueAssignment ⟨name, scope, raw⟩) ++ ofLiteral least l
  | _ => []

/-- a declarator of a plain name -/
def ofDeclarator (least : Nat) (scope : Scope) (d : Declarator) : List Event :=
  match d.id, d.init with
  | some (.identifier i), some init =>
    .binding ⟨i.name, scope⟩ :: (stop .assignment d.loc scope ++ ofInitialiser least scope i.name init)
  | some (.identifier i), none => [.binding ⟨i.name, scope⟩]
  | _, _ => []

/-- the binding of a plain name that is assigned to -/
def ofTarget (scope : Scope) : Node → List Event
  | .identifier i => [.binding ⟨i.name, scope⟩]
  | _ => []

mutual

def ofNode (least : Nat) (scope : Scope) : Node → List Event
  | .variableDeclaration _ declarators _ => declarators.flatMap (ofDeclarator least scope)
  | .functionDeclaration (some id) _ (some (.mk body _)) _ => ofNodes least ⟨id.name⟩ body
  | .expressionStatement (some (.assignment operator (some left) (some right) _)) loc =>
    if Mutates operator then
      ofTarget scope left ++ ofNode least scope left ++ ofNode least scope right ++ stop .assignment loc scope
    else []
  | .expressionStatement (some (.call _ arguments _)) _ => arguments.flatMap (ofLiteralNode least)
  | .ifStatement _ consequent alternate _ => ofBranch least scope alternate ++ ofBranch least scope consequent
  | .loop kind _ loc => if kind = .forOf then [] else stop .loop loc scope
  | .returnStatement (some argument) _ => ofLiteralNode least argument
  | .literal l => ofLiteral least l
  | _ => []

def ofNodes (least : Nat) (scope : Scope) : List Node → List Event
  | [] => []
  | n :: ns => ofNode least scope n ++ ofNodes least scope ns

/-- the events of a branch that is a block -/
def ofBranch (least : Nat) (scope : Scope) : Option Node → List Event
  | some (.block (.mk body _)) => ofNodes least scope body
  | _ => []

end

theorem ofNodes_eq_flatMap (least : Nat) (scope : Scope) (ns : List Node) :
    ofNodes least scope ns = ns.flatMap (ofNode least scope) := by
  induction ns with
  | nil => rfl
  | cons n ns ih => rw [ofNodes, ih, List.flatMap_cons]

theorem ofNodes_singleton (least : Nat) (scope : Scope) (n : Node) :
    ofNodes least scope [n] = ofNode least scope n := by
  rw [ofNodes, ofNodes, List.append_nil]

theorem ofNodes_append (least : Nat) (scope : Scope) (ns ns' : List Node) :
    ofNodes least scope (ns ++ ns') = ofNodes least scope ns ++ ofNodes least scope ns' := by
  simp only [ofNodes_eq_flatMap, List.flatMap_append]

end Trace

/-! ## Seeing the events of a trace -/

/-- put an event among the findings -/
def Collector.see (c : Collector) : Event → Collector
  | .binding b => { c with bindings := c.bindings.insert b }
  | .valueAssignment v => { c with valueAssignments := c.valueAssignments.insert v }
  | .breakpoint b => { c with breakpoints := c.breakpoints.insert b }
  | .candidate k => { c with candidates := c.candidates.insert k }

namespace Walk

variable {σ : Type}

/-- see one event; a candidate goes to the sink as well -/
def see (cfg : WalkConfig σ) (s : WalkState σ) (e : Event) : WalkState σ :=
  { collector := s.collector.see e
    sink := match e with
      | .candidate c => (cfg.sink.add c s.sink).2
      | _ => s.sink }

theorem collector_foldl_see (cfg : WalkConfig σ) (es : List Event) (s : WalkState σ) :
    (es.foldl (see cfg) s).collector = es.foldl Collector.see s.collector := by
  induction es generalizing s with
  | nil => rfl
  | cons e es ih => rw [List.foldl_cons, List.foldl_cons, ih]; rfl

theorem follows_iff_mutates (operator : Option String) : follows operator = true ↔ Trace.Mutates operator := by
  have htokens : Trace.mutatingTokens = AssignmentOperator.all.map AssignmentOperator.token := rfl
  cases operator with
  | none => simp [follows, Trace.Mutates]
  | some token =>
    simp only [follows, Trace.Mutates, htokens, AssignmentOperator.ofToken?, List.find?_isSome, List.mem_map,
      beq_iff_eq, Option.some.injEq]
    constructor
    · rintro ⟨op, hop, rfl⟩
      exact ⟨op.token, ⟨op, hop, rfl⟩, rfl⟩
    · rintro ⟨_, ⟨op, hop, rfl⟩, rfl⟩
      exact ⟨op, hop, rfl⟩

theorem foldl_see_stop (cfg : WalkConfig σ) (kind : BreakpointKind) (loc : Option Location) (scope : Scope)
    (s : WalkState σ) :
    (Trace.stop kind loc scope).foldl (see cfg) s = record (·.addBreakpoint kind loc scope) s := by
  cases loc <;> rfl

theorem foldl_see_ofLiteral (cfg : WalkConfig σ) (l : Literal) (s : WalkState σ) :
    (Trace.ofLiteral cfg.leastLength l).foldl (see cfg) s = onLiteral cfg l s := by
  unfold Trace.ofLiteral onLiteral
  cases l.value with
  | string text =>
    dsimp only
    cases Candidate.extract? text cfg.leastLength <;> rfl
  | _ => rfl

theorem foldl_see_ofLiteralNode (cfg : WalkConfig σ) (n : Node) (s : WalkState σ) :
    (Trace.ofLiteralNode cfg.leastLength n).foldl (see cfg) s = onLiteralNode cfg n s := by
  cases n with
  | literal l => exact foldl_see_ofLiteral cfg l s
  | _ => rfl

theorem foldl_see_ofInitialiser (cfg : WalkConfig σ) (scope : Scope) (name : String) (loc : Option Location)
    (init : Node) (s : WalkState σ) :
    (Trace.stop .assignment loc scope ++ Trace.ofInitialiser cfg.leastLength scope name init).foldl (see cfg) s =
      onInitialiser cfg scope name loc init s := by
  rw [List.foldl_append, foldl_see_stop]
  cases init with
  | literal l =>
    obtain ⟨value, raw, lloc⟩ := l
    simp only [Trace.ofInitialiser, onInitialiser, List.foldl_append, foldl_see_ofLiteral]
    cases raw <;> rfl
  | _ => rfl

theorem foldl_see_ofDeclarator (cfg : WalkConfig σ) (scope : Scope) (d : Declarator) (s : WalkState σ) :
    (Trace.ofDeclarator cfg.leastLength scope d).foldl (see cfg) s = onDeclarator cfg scope d s := by
  obtain ⟨id, init, loc⟩ := d
  cases id with
  | none => rfl
  | some target =>
    cases target with
    | identifier i =>
      cases init with
      | none => rfl
      | some init => exact foldl_see_ofInitialiser cfg scope i.name loc init _
    | _ => rfl

theorem foldl_see_ofTarget (cfg : WalkConfig σ) (scope : Scope) (target : Node) (s : WalkState σ) :
    (Trace.ofTarget scope target).foldl (see cfg) s = onTarget scope target s := by
  cases target <;> rfl

/-- seeing what a list of parts gives is handling the parts one after the other -/
theorem foldl_see_flatMap {α : Type} (cfg : WalkConfig σ) (events : α → List Event)
    (handle : α → WalkState σ → WalkState σ) (h : ∀ a s, (events a).foldl (see cfg) s = handle a s) (parts : List α)
    (s : WalkState σ) : (parts.flatMap events).foldl (see cfg) s = parts.foldl (fun s a => handle a s) s := by
  induction parts generalizing s with
  | nil => rfl
  | cons a parts ih => rw [List.flatMap_cons, List.foldl_append, h, List.foldl_cons, ih]

mutual

theorem visit_eq_foldl_see (cfg : WalkConfig σ) (scope : Scope) (n : Node) (s : WalkState σ) :
    visit cfg scope n s = (Trace.ofNode cfg.leastLength scope n).foldl (see cfg) s := by
  cases n with
  | variableDeclaration kind declarators loc =>
    rw [visit, Trace.ofNode, foldl_see_flatMap cfg _ _ (foldl_see_ofDeclarator cfg scope)]
  | functionDeclaration id params body loc =>
    match id, body with
    | some id, some (.mk body _) => rw [visit, Trace.ofNode, visitAll_eq_foldl_see]
    | some _, none => rfl
    | none, some _ => rfl
    | none, none => rfl
  | expressionStatement expression loc =>
    cases expression with
    | none => rfl
    | some e =>
      cases e with
      | assignment operator left right aloc =>
        match left, right with
        | some left, some right =>
          rw [visit, Trace.ofNode]
          by_cases h : Trace.Mutates operator
          · rw [if_pos ((follows_iff_mutates operator).2 h), if_pos h]
            simp only [List.foldl_append, foldl_see_ofTarget, foldl_see_stop, visit_eq_foldl_see cfg scope left,
              visit_eq_foldl_see cfg scope right]
          · rw [if_neg (mt (follows_iff_mutates operator).1 h), if_neg h]
            rfl
        | some _, none => rfl
        | none, _ => rfl
      | call callee arguments cloc =>
        rw [visit, Trace.ofNode, foldl_see_flatMap cfg _ _ (foldl_see_ofLiteralNode cfg)]
      | _ => rfl
  | ifStatement test consequent alternate loc =>
    rw [visit, Trace.ofNode, List.foldl_append, visitBranch_eq_foldl_see, visitBranch_eq_foldl_see]
  | loop kind body loc =>
    rw [visit, Trace.ofNode]
    split
    · rfl
    · rw [foldl_see_stop]
  | returnStatement argument loc =>
    match argument with
    | some argument => rw [visit, Trace.ofNode, foldl_see_ofLiteralNode]
    | none => rfl
  | literal l => rw [visit, Trace.ofNode, foldl_see_ofLiteral]
  | _ => rfl

theorem visitAll_eq_foldl_see (cfg : WalkConfig σ) (scope : Scope) (ns : List Node) (s : WalkState σ) :
    visitAll cfg scope ns s = (Trace.ofNodes cfg.leastLength scope ns).foldl (see cfg) s := by
  cases ns with
  | nil => rfl
  | cons n ns =>
    rw [visitAll, Trace.ofNodes, List.foldl_append, visit_eq_foldl_see cfg scope n, visitAll_eq_foldl_see cfg scope ns]

theorem visitBranch_eq_foldl_see (cfg : WalkConfig σ) (scope : Scope) (branch : Option Node) (s : WalkState σ) :
    visitBranch cfg scope branch s = (Trace.ofBranch cfg.leastLength scope branch).foldl (see cfg) s := by
  cases branch with
  | none => rfl
  | some n =>
    cases n with
    | block b =>
      obtain ⟨body, loc⟩ := b
      rw [visitBranch, Trace.ofBranch, visitAll_eq_foldl_see]
    | _ => rfl

end

end Walk

/-! ## The findings of a trace -/

/-- if seeing an event puts its `part`, when it has one, into the set `field`, then seeing a trace puts all of them in -/
theorem Collector.foldl_see_eq_foldl_insert {α : Type} [DecidableEq α] (field : Collector → OrderedSet α)
    (part : Event → Option α) (h : ∀ c e, field (c.see e) = (part e).elim (field c) (field c).insert)
    (es : List Event) (c : Collector) :
    field (es.foldl Collector.see c) = (es.filterMap part).foldl OrderedSet.insert (field c) := by
  induction es generalizing c with
  | nil => rfl
  | cons e es ih =>
    rw [List.foldl_cons, ih, h, List.filterMap_cons]
    cases part e <;> rfl

theorem Collector.toList_foldl_see {α : Type} [DecidableEq α] (field : Collector → OrderedSet α)
    (part : Event → Option α) (h : ∀ c e, field (c.see e) = (part e).elim (field c) (field c).insert)
    (hempty : (field .empty).toList = []) (es : List Event) :
    (field (es.foldl Collector.see .empty)).toList = (es.filterMap part).eraseDups := by
  rw [Collector.foldl_see_eq_foldl_insert field part h, OrderedSet.toList_foldl_insert, hempty, List.nil_append]

theorem Collector.finish_foldl_see (es : List Event) :
    (es.foldl Collector.see .empty).finish = Findings.ofEvents es := by
  unfold Collector.finish Findings.ofEvents
  congr 1
  · exact toList_foldl_see (·.bindings) Event.binding? (fun c e => by cases e <;> rfl) rfl es
  · exact toList_foldl_see (·.valueAssignments) Event.valueAssignment? (fun c e => by cases e <;> rfl) rfl es
  · exact toList_foldl_see (·.breakpoints) Event.breakpoint? (fun c e => by cases e <;> rfl) rfl es
  · exact toList_foldl_see (·.candidates) Event.candidate? (fun c e => by cases e <;> rfl) rfl es

theorem Walk.findings_walks {σ : Type} (cfg : WalkConfig σ) (parts : List (Scope × List Node)) (sink : σ) :
    (walks cfg parts sink).1 = Findings.ofEvents (parts.flatMap fun p => Trace.ofNodes cfg.leastLength p.1 p.2) := by
  have hstate : parts.foldl (fun s p => visitAll cfg p.1 p.2 s) (start sink) =
      (parts.flatMap fun p => Trace.ofNodes cfg.leastLength p.1 p.2).foldl (see cfg) (start sink) :=
    (foldl_see_flatMap cfg _ _ (fun p s => (visitAll_eq_foldl_see cfg p.1 p.2 s).symm) parts (start sink)).symm
  calc (walks cfg parts sink).1
      = (parts.foldl (fun s p => visitAll cfg p.1 p.2 s) (start sink)).collector.finish := rfl
    _ = ((parts.flatMap fun p => Trace.ofNodes cfg.leastLength p.1 p.2).foldl Collector.see .empty).finish := by
      rw [hstate, collector_foldl_see]
      rfl
    _ = Findings.ofEvents (parts.flatMap fun p => Trace.ofNodes cfg.leastLength p.1 p.2) :=
      Collector.finish_foldl_see _

theorem Walk.findings_walk {σ : Type} (cfg : WalkConfig σ) (scope : Scope) (body : List Node) (sink : σ) :
    (walks cfg [(scope, body)] sink).1 = Findings.ofEvents (Trace.ofNodes cfg.leastLength scope body) := by
  rw [findings_walks, List.flatMap_singleton]

/-- **Findings are the trace without its repeats.** For every program, whatever is missing in it, every least length
and every sink, the four lists of a walk hold the bindings, literal initialisers, stops and candidates of the trace
in the order of their first occurrence. -/
theorem Walk.program_findings_eq {σ : Type} (cfg : WalkConfig σ) (body : List Node) (sink : σ) :
    (Walk.program cfg body sink).1 = Findings.ofEvents (Trace.ofNodes cfg.leastLength .global body) := by
  rw [Walk.program, findings_walks, List.flatMap_singleton]

end ScriptTriage

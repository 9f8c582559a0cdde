import ScriptTriage.Findings
import ScriptTriage.Location
import ScriptTriage.OrderedSet

/-
The accumulator of one walk: four ordered sets. Each entry point says whether the entry was new.
-/

namespace ScriptTriage

/-- what one walk has found so far -/
structure Collector where
  bindings : OrderedSet Binding := ∅
  valueAssignments : OrderedSet ValueAssignment := ∅
  breakpoints : OrderedSet Breakpoint := ∅
  candidates : OrderedSet Candidate := ∅
deriving Inhabited

namespace Collector

def empty : Collector := {}

def addBinding (c : Collector) (name : String) (scope : Scope) : Collector :=
  { c with bindings := c.bindings.insert ⟨name, scope⟩ }

def addValueAssignment (c : Collector) (name : String) (scope : Scope) (raw : String) : Collector :=
  { c with valueAssignments := c.valueAssignments.insert ⟨name, scope, raw⟩ }

/-- record a line to stop at, the last line of `loc`; without a location there is no such line -/
def addBreakpoint (c : Collector) (kind : BreakpointKind) (loc : Option Location) (scope : Scope) : Collector :=
  match loc with
  | some loc => { c with breakpoints := c.breakpoints.insert ⟨kind, loc.endLine, scope⟩ }
  | none => c

def addCandidate (c : Collector) (candidate : Candidate) : Collector :=
  { c with candidates := c.candidates.insert candidate }

/-- the four lists -/
def finish (c : Collector) : Findings :=
  { bindings := c.bindings.toList
    valueAssignments := c.valueAssignments.toList
    breakpoints := c.breakpoints.toList
    candidates := c.candidates.toList }

/-- the number of entries of all four kinds -/
def size (c : Collector) : Nat :=
  c.bindings.size + c.valueAssignments.size + c.breakpoints.size + c.candidates.size

inductive Entry where
  | binding (name : String) (scope : Scope)
  | valueAssignment (name : String) (scope : Scope) (raw : String)
  | breakpoint (kind : BreakpointKind) (loc : Option Location) (scope : Scope)
  | candidate (candidate : Candidate)
deriving DecidableEq, Repr

def add (c : Collector) : Entry → Collector
  | .binding name scope => c.addBinding name scope
  | .valueAssignment name scope raw => c.addValueAssignment name scope raw
  | .breakpoint kind loc scope => c.addBreakpoint kind loc scope
  | .candidate candidate => c.addCandidate candidate

/-- record entries in turn, and tell for each whether it was new -/
def addAll (c : Collector) : List Entry → List Bool × Collector
  | [] => ([], c)
  | e :: es =>
    let next := c.add e
    let (news, last) := next.addAll es
    (decide (c.size < next.size) :: news, last)

end Collector

end ScriptTriage

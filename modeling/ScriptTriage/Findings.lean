import ScriptTriage.Candidate

/-
What an analysis finds: names that are bound, declarators initialised with a literal, places to stop at when the
script is later run, and payload candidates, each under the scope in which it stands.
-/

namespace ScriptTriage

/-- a flat scope label: the name of the nearest enclosing function declaration, or the global scope -/
structure Scope where
  label : String
deriving DecidableEq, Repr, Inhabited

def Scope.global : Scope := ⟨"global"⟩

/-- the global scope is known by its label alone -/
def Scope.isGlobal (s : Scope) : Bool := s.label == Scope.global.label

/-- a name that is declared or assigned to -/
structure Binding where
  name : String
  scope : Scope
deriving DecidableEq, Repr, Inhabited

/-- a declarator initialised with a literal, and the literal as written -/
structure ValueAssignment where
  name : String
  scope : Scope
  raw : String
deriving DecidableEq, Repr, Inhabited

inductive BreakpointKind where
  /-- a declarator's initialiser or an assignment changes state -/
  | assignment
  /-- a loop begins another round -/
  | loop
deriving DecidableEq, Repr, Inhabited

def BreakpointKind.name : BreakpointKind → String
  | .assignment => "assignment"
  | .loop => "loop"

/-- a line to stop at -/
structure Breakpoint where
  kind : BreakpointKind
  line : Nat
  scope : Scope
deriving DecidableEq, Repr, Inhabited

/-- everything found in one script, each list in the order of discovery -/
structure Findings where
  bindings : List Binding := []
  valueAssignments : List ValueAssignment := []
  breakpoints : List Breakpoint := []
  candidates : List Candidate := []
deriving DecidableEq, Repr, Inhabited

namespace Findings

def isEmpty (f : Findings) : Bool :=
  f.bindings.isEmpty && f.valueAssignments.isEmpty && f.breakpoints.isEmpty && f.candidates.isEmpty

def hasBinding (f : Findings) (name : String) (scope : Scope) : Bool :=
  f.bindings.any fun b => b.name == name && b.scope == scope

def breakpointLines (f : Findings) (scope : Scope) : List Nat :=
  (f.breakpoints.filter fun b => b.scope == scope).map (·.line)

def breakpointsOf (f : Findings) (kind : BreakpointKind) : List Breakpoint :=
  f.breakpoints.filter fun b => b.kind == kind

def globalBindings (f : Findings) : List String :=
  (f.bindings.filter fun b => b.scope.isGlobal).map (·.name)

end Findings

end ScriptTriage

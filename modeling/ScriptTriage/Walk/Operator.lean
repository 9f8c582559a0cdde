/-
The assignment operators that change a variable in place. Logical assignment and exponentiation are left out: they
give no breakpoint.
-/

namespace ScriptTriage

/-- an assignment operator that the walk follows -/
inductive AssignmentOperator where
  | assign
  | add
  | sub
  | mul
  | div
  | mod
  | shl
  | sar
  | shr
  | bitOr
  | bitXor
  | bitAnd
deriving DecidableEq, Repr

namespace AssignmentOperator

def all : List AssignmentOperator :=
  [.assign, .add, .sub, .mul, .div, .mod, .shl, .sar, .shr, .bitOr, .bitXor, .bitAnd]

def token : AssignmentOperator → String
  | .assign => "="
  | .add => "+="
  | .sub => "-="
  | .mul => "*="
  | .div => "/="
  | .mod => "%="
  | .shl => "<<="
  | .sar => ">>="
  | .shr => ">>>="
  | .bitOr => "|="
  | .bitXor => "^="
  | .bitAnd => "&="

def ofToken? (token : String) : Option AssignmentOperator := all.find? fun op => op.token == token

end AssignmentOperator

end ScriptTriage

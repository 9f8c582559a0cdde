import ScriptTriage.Failure

/-
The settings of an analysis. Both numbers have to be positive; the least length is looked at first.
-/

namespace ScriptTriage

structure Options where
  /-- string literals of at least this many characters are candidates -/
  leastLength : Nat := 32
  /-- what is nested deeper is replaced by a placeholder -/
  maxDepth : Nat := 500
  /-- refuse scripts with syntax errors instead of walking what could be read -/
  strict : Bool := false
deriving DecidableEq, Repr, Inhabited

inductive OptionFault where
  | leastLength
  | maxDepth
deriving DecidableEq, Repr

def OptionFault.message : OptionFault → String
  | .leastLength => "shellcode_min_length must be greater than 0"
  | .maxDepth => "max_depth must be greater than 0"

def OptionFault.failure (f : OptionFault) : Failure := .configuration f.message

namespace Options

/-- the first fault in the settings -/
def fault? (o : Options) : Option OptionFault :=
  if o.leastLength = 0 then some .leastLength else if o.maxDepth = 0 then some .maxDepth else none

/-- settings that can be used -/
def Valid (o : Options) : Prop := 0 < o.leastLength ∧ 0 < o.maxDepth

instance (o : Options) : Decidable o.Valid := inferInstanceAs (Decidable (_ ∧ _))

theorem fault?_eq_none_iff (o : Options) : o.fault? = none ↔ o.Valid := by
  unfold fault? Valid
  split
  · simp; omega
  · split <;> simp <;> omega

/-- the settings, unless they are refused -/
def validate (o : Options) : Except OptionFault Options :=
  match o.fault? with
  | some fault => .error fault
  | none => .ok o

end Options

end ScriptTriage

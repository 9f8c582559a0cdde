/-
Unsigned numbers written in some base. One leading plus sign is allowed, an empty digit string is not, and a number
above the given limit cannot be read.
-/

namespace ScriptTriage.Number

/-- the value of a digit in bases up to 36, in either case -/
def digitValue (c : Char) : Option Nat :=
  if '0' ≤ c && c ≤ '9' then some (c.toNat - '0'.toNat)
  else if 'a' ≤ c && c ≤ 'z' then some (c.toNat - 'a'.toNat + 10)
  else if 'A' ≤ c && c ≤ 'Z' then some (c.toNat - 'A'.toNat + 10)
  else none

/-- a digit of this base -/
def digitOf (base : Nat) (c : Char) : Option Nat := (digitValue c).filter (· < base)

/-- the number that digits spell, most significant first -/
def digitsValue (base : Nat) : List Char → Nat → Option Nat
  | [], acc => some acc
  | c :: cs, acc => (digitOf base c).bind fun d => digitsValue base cs (acc * base + d)

/-- the number spelled by at least one digit, behind at most one plus sign -/
def parseRadix (base : Nat) (cs : List Char) : Option Nat :=
  let digits := match cs with
    | '+' :: rest => rest
    | _ => cs
  if digits.isEmpty then none else digitsValue base digits 0

/-- the same, refused above the limit -/
def parseBounded (base limit : Nat) (cs : List Char) : Option Nat := (parseRadix base cs).filter (· ≤ limit)

end ScriptTriage.Number

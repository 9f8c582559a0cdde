/-
Binary floating-point numbers of 64 bits, as bit patterns: a sign, eleven exponent bits, fifty-two mantissa bits.
The one operation is rounding an exact quotient to the nearest number, ties to the even mantissa.
-/

namespace ScriptTriage.Number

/-- a bit pattern -/
structure Binary64 where
  bits : UInt64
deriving DecidableEq, Repr, Inhabited

namespace Binary64

/-- the pattern of infinity, as a number; a larger magnitude is no number -/
def infinityBits : Nat := 0x7FF0000000000000

/-- the bit of the sign; the bits below it are the magnitude -/
def signBit : Nat := 0x8000000000000000

/-- how many magnitudes share an exponent -/
def mantissaCount : Nat := 0x10000000000000

/-- the quotient rounded to the nearest natural number, a tie to the even one -/
def roundDiv (num den : Nat) : Nat :=
  let q := num / den
  let r := num % den
  if 2 * r < den then q
  else if den < 2 * r then q + 1
  else if q % 2 = 0 then q else q + 1

/-- the power of two at or below `num / den`, as an exponent -/
def floorLog2 (num den : Nat) : Int :=
  let guess : Int := (Nat.log2 num : Int) - (Nat.log2 den : Int)
  let fits : Bool :=
    if 0 ≤ guess then den * Nat.pow 2 guess.toNat ≤ num else den ≤ num * Nat.pow 2 (-guess).toNat
  if fits then guess else guess - 1

/-- `num / den` measured in units of two to the power `unit`, rounded -/
def roundTo (num den : Nat) (unit : Int) : Nat :=
  if 0 ≤ unit then roundDiv num (den * Nat.pow 2 unit.toNat) else roundDiv (num * Nat.pow 2 (-unit).toNat) den

/-- the magnitude bits of the number nearest to `num / den`; a carry out of the mantissa moves into the exponent -/
def magnitude (num den : Nat) : Nat :=
  if num = 0 then 0
  else
    let e := floorLog2 num den
    if e < -1022 then roundTo num den (-1074)
    else min infinityBits ((e + 1022).toNat * mantissaCount + roundTo num den (e - 52))

/-- the number nearest to `num / den`, or its negative -/
def ofRatio (negative : Bool) (num den : Nat) : Binary64 :=
  ⟨UInt64.ofNat ((if negative then signBit else 0) + magnitude num den)⟩

/-- the number nearest to a natural number -/
def ofNat (n : Nat) : Binary64 := ofRatio false n 1

def infinity (negative : Bool) : Binary64 :=
  ⟨UInt64.ofNat ((if negative then signBit else 0) + infinityBits)⟩

def nan : Binary64 := ⟨0x7FF8000000000000⟩

def isNaN (x : Binary64) : Bool := infinityBits < x.bits.toNat % signBit

/-- the number nearest to `digits * 10 ^ exponent`; `count` is at least the number of digits. Beyond the range of the
format the answer does not depend on the digits, and the power of ten is never computed. -/
def ofDecimal (negative : Bool) (digits count : Nat) (exponent : Int) : Binary64 :=
  if digits = 0 then ofRatio negative 0 1
  else if 400 < exponent then infinity negative
  else if exponent + count < -400 then ofRatio negative 0 1
  else if 0 ≤ exponent then ofRatio negative (digits * Nat.pow 10 exponent.toNat) 1
  else ofRatio negative digits (Nat.pow 10 (-exponent).toNat)

end Binary64

end ScriptTriage.Number

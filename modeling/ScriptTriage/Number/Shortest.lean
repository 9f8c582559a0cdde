import ScriptTriage.Number.Binary64

/-
The shortest decimal that reads back as a given number: the fewest digits, and of those the nearest. It is written
without an exponent and always with a point.
-/

namespace ScriptTriage.Number

/-- `digits * 10 ^ exponent` -/
structure Decimal where
  digits : Nat
  exponent : Int
deriving DecidableEq, Repr, Inhabited

/-- a last zero moved into the exponent: nine rounded up is one of the next power of ten -/
def Decimal.carry (d : Decimal) : Decimal :=
  if d.digits % 10 = 0 then ⟨d.digits / 10, d.exponent + 1⟩ else d

namespace Binary64

def isNegative (x : Binary64) : Bool := signBit ≤ x.bits.toNat

def magnitudeBits (x : Binary64) : Nat := x.bits.toNat % signBit

/-- is it neither infinite nor no number? -/
def isFinite (x : Binary64) : Bool := x.magnitudeBits < infinityBits

/-- the exact magnitude as a quotient -/
def ratio (x : Binary64) : Nat × Nat :=
  let exponent := x.magnitudeBits / mantissaCount
  let fraction := x.magnitudeBits % mantissaCount
  let mantissa := if exponent = 0 then fraction else mantissaCount + fraction
  let power : Int := (max exponent 1 : Nat) - 1075
  if 0 ≤ power then (mantissa * Nat.pow 2 power.toNat, 1) else (mantissa, Nat.pow 2 (-power).toNat)

def digitCount (n : Nat) : Nat := (Nat.toDigits 10 n).length

/-- the least power of ten that lifts a small quotient to one or more -/
def liftToOne (num den : Nat) : (fuel : Nat) → (power : Nat) → Nat
  | 0, power => power
  | fuel + 1, power => if den ≤ num * Nat.pow 10 power then power else liftToOne num den fuel (power + 1)

/-- the exponent of the leading decimal digit -/
def leadingExponent (num den : Nat) : Int :=
  if den ≤ num then digitCount (num / den) - 1 else -(liftToOne num den 400 1 : Int)

/-- the multiples of `10 ^ exponent` next to a quotient, the nearer one first and of two as near the upper one -/
def neighbours (num den : Nat) (exponent : Int) : List Decimal :=
  let (n, d) :=
    if 0 ≤ exponent then (num, den * Nat.pow 10 exponent.toNat) else (num * Nat.pow 10 (-exponent).toNat, den)
  let low : Decimal := ⟨n / d, exponent⟩
  let high : Decimal := ⟨n / d + 1, exponent⟩
  if 2 * (n % d) < d then [low, high] else [high, low]

/-- does the decimal read back as a number of this magnitude? -/
def readsBack (x : Binary64) (d : Decimal) : Bool :=
  (ofDecimal false d.digits (digitCount d.digits) d.exponent).magnitudeBits == x.magnitudeBits

/-- the shortest decimal of a magnitude that is not zero -/
def shortest (x : Binary64) : Decimal :=
  let (num, den) := x.ratio
  let leading := leadingExponent num den
  let found := (List.range 17).findSome? fun (k : Nat) => (neighbours num den (leading - (k : Int))).find? x.readsBack
  (found.getD ⟨num, 0⟩).carry

end Binary64

/-- a decimal in positional notation, with a point and at least one digit on either side of it -/
def Decimal.positional (d : Decimal) : String :=
  let digits := Nat.toDigits 10 d.digits
  String.ofList (if 0 ≤ d.exponent then digits ++ List.replicate d.exponent.toNat '0' ++ ['.', '0']
    else
      let places := (-d.exponent).toNat
      let padded := List.replicate (places + 1 - digits.length) '0' ++ digits
      padded.take (padded.length - places) ++ '.' :: padded.drop (padded.length - places))

def Binary64.text (x : Binary64) : String :=
  if x.isNaN then "NaN"
  else
    let sign := if x.isNegative then "-" else ""
    if !x.isFinite then sign ++ "inf"
    else if x.magnitudeBits = 0 then sign ++ "0.0"
    else sign ++ x.shortest.positional

end ScriptTriage.Number

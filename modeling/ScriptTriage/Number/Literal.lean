import ScriptTriage.Number.Radix
import ScriptTriage.Number.Binary64

/-
The value of a number token. Underscores and a trailing `n` are dropped; then come the prefixed bases, the legacy
octal form (a zero and more octal digits), and decimal notation. What cannot be read is no number.
-/

namespace ScriptTriage.Number

/-- the letter in lower case, if it is an ASCII letter -/
def lowerAscii (c : Char) : Char :=
  if 'A' ≤ c && c ≤ 'Z' then Char.ofNat (c.toNat + 32) else c

def isDigit (c : Char) : Bool := '0' ≤ c && c ≤ '9'

def isOctalDigit (c : Char) : Bool := '0' ≤ c && c ≤ '7'

/-- the number a run of decimal digits spells -/
def decimalValue (cs : List Char) : Nat := cs.foldl (fun acc c => acc * 10 + (c.toNat - '0'.toNat)) 0

def splitSign : List Char → Bool × List Char
  | '-' :: rest => (true, rest)
  | '+' :: rest => (false, rest)
  | cs => (false, cs)

/-- the exponent part: nothing, or a mark, an optional sign and at least one digit -/
def parseExponent : List Char → Option Int
  | [] => some 0
  | c :: rest =>
    if c = 'e' || c = 'E' then
      let (negative, digits) := splitSign rest
      if digits.isEmpty || !digits.all isDigit then none
      else some (if negative then -(decimalValue digits : Int) else decimalValue digits)
    else none

/-- decimal notation: an optional sign; then `inf`, `infinity` or `nan`; or digits with at most one point among them
and at least one digit in all, and an optional exponent -/
def parseDecimal (cs : List Char) : Option Binary64 :=
  let (negative, body) := splitSign cs
  let word := String.ofList (body.map lowerAscii)
  if word = "inf" || word = "infinity" then some (Binary64.infinity negative)
  else if word = "nan" then some Binary64.nan
  else
    let whole := body.takeWhile isDigit
    let afterWhole := body.dropWhile isDigit
    let (fraction, tail) := match afterWhole with
      | '.' :: rest => (rest.takeWhile isDigit, rest.dropWhile isDigit)
      | _ => ([], afterWhole)
    if whole.isEmpty && fraction.isEmpty then none
    else
      (parseExponent tail).map fun exponent =>
        Binary64.ofDecimal negative (decimalValue (whole ++ fraction)) (whole.length + fraction.length)
          (exponent - fraction.length)

/-- the largest number that a prefixed base or the legacy octal form may spell -/
def wordLimit : Nat := 0xFFFFFFFFFFFFFFFF

/-- digits of a base as a number, no number if they cannot be read -/
def parseWord (base : Nat) (cs : List Char) : Binary64 :=
  match parseBounded base wordLimit cs with
  | some n => Binary64.ofNat n
  | none => Binary64.nan

/-- without underscores, without one trailing `n`, in lower case -/
def cleaned (cs : List Char) : List Char :=
  let plain := cs.filter (· ≠ '_')
  let body := if plain.getLast? = some 'n' then plain.dropLast else plain
  body.map lowerAscii

/-- the value of a number token that is already cleaned -/
def valueOfCleaned : List Char → Binary64
  | '0' :: 'x' :: digits => parseWord 16 digits
  | '0' :: 'o' :: digits => parseWord 8 digits
  | '0' :: 'b' :: digits => parseWord 2 digits
  | cs =>
    match cs with
    | '0' :: c :: rest =>
      if (c :: rest).all isOctalDigit then parseWord 8 (c :: rest) else (parseDecimal cs).getD Binary64.nan
    | _ => (parseDecimal cs).getD Binary64.nan

def valueOf (text : String) : Binary64 := valueOfCleaned (cleaned text.toList)

end ScriptTriage.Number

import ScriptTriage.Number.Radix
import ScriptTriage.Text.Utf16

/-
The value of a string literal. Its content comes as segments, plain fragments and escape sequences; each stands for
some UTF-16 code units, and the value is the text that all of them decode to. An escape that cannot be read stands
for its own text without the backslash.
-/

namespace ScriptTriage.Text

open ScriptTriage.Number

def isHexDigit (c : Char) : Bool :=
  ('0' ≤ c && c ≤ '9') || ('a' ≤ c && c ≤ 'f') || ('A' ≤ c && c ≤ 'F')

/-- exactly `width` hexadecimal digits as one code unit -/
def hexUnit (width : Nat) (digits : List Char) : Option CodeUnit :=
  if digits.length = width && digits.all isHexDigit then
    (parseBounded 16 0xFFFF digits).map UInt16.ofNat
  else none

/-- what stands between braces, if the whole is in braces -/
def braced? : List Char → Option (List Char)
  | '\x7b' :: rest => if rest.getLast? = some '\x7d' then some rest.dropLast else none
  | _ => none

/-- a code point that is a character -/
def charOfNat? (n : Nat) : Option Char :=
  if n < 0xD800 || (0xDFFF < n && n < 0x110000) then some (Char.ofNat n) else none

/-- the code units behind `\u`: a code point in braces, or four digits; `body` is the escape without its backslash -/
def unicodeUnits (rest body : List Char) : List CodeUnit :=
  match braced? rest with
  | some inner =>
    match (parseBounded 16 0xFFFFFFFF inner).bind charOfNat? with
    | some c => unitsOfChar c
    | none => units body
  | none =>
    match hexUnit 4 rest with
    | some unit => [unit]
    | none => units body

/-- a line terminator, which a backslash makes disappear -/
def isLineTerminator (c : Char) : Bool := c = '\n' || c = '\r' || c = '\u2028' || c = '\u2029'

/-- the code units of an escape without its backslash, `first` being its first character -/
def escapeBodyUnits (first : Char) (rest : List Char) : List CodeUnit :=
  let body := first :: rest
  if first = 'n' then [0x0A]
  else if first = 't' then [0x09]
  else if first = 'r' then [0x0D]
  else if first = 'b' then [0x08]
  else if first = 'f' then [0x0C]
  else if first = 'v' then [0x0B]
  else if first = 'x' then
    match hexUnit 2 rest with
    | some unit => [unit]
    | none => units body
  else if first = 'u' then unicodeUnits rest body
  else if '0' ≤ first && first ≤ '7' then
    match parseBounded 8 0xFF body with
    | some n => [UInt16.ofNat n]
    | none => units body
  else if isLineTerminator first then []
  else unitsOfChar first

def escapeUnits : List Char → List CodeUnit
  | '\\' :: first :: rest => escapeBodyUnits first rest
  | ['\\'] => []
  | cs => units cs

/-- a piece of a string literal's content -/
inductive Segment where
  | fragment (text : String)
  | escape (sequence : String)
deriving DecidableEq, Repr, Inhabited

def Segment.units : Segment → List CodeUnit
  | .fragment text => Text.units text.toList
  | .escape sequence => escapeUnits sequence.toList

/-- the value of a string literal with this content -/
def decodeSegments (segments : List Segment) : String :=
  String.ofList (decodeUnits (segments.flatMap Segment.units))

end ScriptTriage.Text

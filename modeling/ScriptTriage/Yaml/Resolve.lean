import ScriptTriage.Number.Literal
import ScriptTriage.Number.Shortest
import ScriptTriage.Text.Quoted
import ScriptTriage.Yaml.Document

/-
What a value means: a plain scalar may spell nothing, a boolean, an integer or a floating-point number, and is text
otherwise; a quoted scalar is text. A tag of the core schema asks for one of these meanings.
-/

namespace ScriptTriage.Yaml

open ScriptTriage.Number (Binary64)

inductive Meaning where
  | unit
  | boolean (value : Bool)
  | unsigned (value : Nat)
  | signed (value : Int)
  /-- an integer beyond 64 bits -/
  | wideUnsigned (value : Nat)
  /-- a negative integer beyond 64 bits -/
  | wideSigned (value : Int)
  | float (value : Binary64)
  | string (value : String)
  | sequence
  | map
  /-- a text whose tag asks for something else -/
  | mistagged (text expected : String)
deriving DecidableEq, Repr

namespace Meaning

def integerText (text : String) : String := "integer \x60" ++ text ++ "\x60"

def describe : Meaning → String
  | .unit => "unit value"
  | .boolean b => "boolean \x60" ++ (if b then "true" else "false") ++ "\x60"
  | .unsigned n => integerText (toString n)
  | .signed i => integerText (toString i)
  | .wideUnsigned n => integerText (toString n) ++ " as u128"
  | .wideSigned i => integerText (toString i) ++ " as i128"
  | .float x => "floating point \x60" ++ x.text ++ "\x60"
  | .string s => "string " ++ Text.quoted s
  | .sequence => "sequence"
  | .map => "map"
  | .mistagged text _ => "string " ++ Text.quoted text

end Meaning

/-- the words for nothing -/
def isNullWord (s : String) : Bool := ["null", "Null", "NULL", "~"].contains s

/-- the words for truth values -/
def boolean? (s : String) : Option Bool :=
  if ["true", "True", "TRUE"].contains s then some true
  else if ["false", "False", "FALSE"].contains s then some false
  else none

/-- are these digits with a leading zero, and so no number? -/
def isPaddedDigits (cs : List Char) : Bool :=
  let body := match cs with
    | '-' :: rest | '+' :: rest => rest
    | _ => cs
  match body with
  | '0' :: c :: rest => (c :: rest).all Number.isDigit
  | _ => false

/-- the base that a prefix of two characters stands for -/
def baseOf? : List Char → Option (Nat × List Char)
  | '0' :: 'x' :: rest => some (16, rest)
  | '0' :: 'o' :: rest => some (8, rest)
  | '0' :: 'b' :: rest => some (2, rest)
  | _ => none

def isSigned : List Char → Bool
  | '+' :: _ | '-' :: _ => true
  | _ => false

/-- digits of a base, without a sign, up to a limit -/
def digits? (base limit : Nat) (cs : List Char) : Option Nat :=
  if isSigned cs then none else Number.parseBounded base limit cs

/-- an integer that is not negative, up to a limit: decimal without leading zeros, or with the prefix of a base -/
def unsigned? (limit : Nat) (cs : List Char) : Option Nat :=
  let body := match cs with
    | '+' :: rest => rest
    | _ => cs
  match (baseOf? body).bind fun b => digits? b.1 limit b.2 with
  | some n => some n
  | none => if isPaddedDigits cs then none else digits? 10 limit body

/-- a negative integer (or a zero with a minus) down to a limit -/
def negative? (limit : Nat) (cs : List Char) : Option Int :=
  match cs with
  | '-' :: body =>
    match (baseOf? body).bind fun b => digits? b.1 limit b.2 with
    | some n => some (-(n : Int))
    | none => if isPaddedDigits cs then none else (digits? 10 limit body).map fun n => -(n : Int)
  | _ => none

/-- an integer of up to 64 bits, or else of up to 128 bits -/
def integer? (cs : List Char) : Option Meaning :=
  ((unsigned? 0xFFFFFFFFFFFFFFFF cs).map Meaning.unsigned).or
    (((negative? 0x8000000000000000 cs).map Meaning.signed).or
      (((unsigned? 0xFFFFFFFFFFFFFFFFFFFFFFFFFFFFFFFF cs).map Meaning.wideUnsigned).or
        ((negative? 0x80000000000000000000000000000000 cs).map Meaning.wideSigned)))

/-- a floating-point number: the words for infinity and for no number, or a finite decimal -/
def float? (cs : List Char) : Option Binary64 :=
  let body := match cs with
    | '+' :: rest => rest
    | _ => cs
  if cs.head? = some '+' && isSigned body then none
  else
    let word := String.ofList body
    let whole := String.ofList cs
    if [".inf", ".Inf", ".INF"].contains word then some (.infinity false)
    else if ["-.inf", "-.Inf", "-.INF"].contains whole then some (.infinity true)
    else if [".nan", ".NaN", ".NAN"].contains whole then some .nan
    else (Number.parseDecimal body).filter (·.isFinite)

def plainMeaning (s : String) : Meaning :=
  if s.isEmpty || isNullWord s then .unit
  else
    match boolean? s with
    | some b => .boolean b
    | none =>
      match integer? s.toList with
      | some m => m
      | none =>
        match (if isPaddedDigits s.toList then none else float? s.toList) with
        | some x => .float x
        | none => .string s

def Scalar.meaning (s : Scalar) : Meaning :=
  let orMistagged (m : Option Meaning) (expected : String) : Meaning := m.getD (.mistagged s.text expected)
  match s.tag with
  | some tag =>
    if tag = Scanner.coreTag "bool" then orMistagged ((boolean? s.text).map .boolean) "a boolean"
    else if tag = Scanner.coreTag "int" then orMistagged (integer? s.text.toList) "an integer"
    else if tag = Scanner.coreTag "float" then orMistagged ((float? s.text.toList).map .float) "a float"
    else if tag = Scanner.coreTag "null" then orMistagged (if isNullWord s.text then some .unit else none) "null"
    else if tag.startsWith "!" && s.style = .plain then plainMeaning s.text
    else .string s.text
  | none => if s.style = .plain then plainMeaning s.text else .string s.text

def Value.meaning (v : Value) : Meaning :=
  match v.content with
  | .scalar s => s.meaning
  | .sequence => .sequence
  | .mapping => .map

/-- may the text of the scalar be read as a number or truth value? So may plain scalars, whatever their tag, and
literal ones with the right tag. -/
def Scalar.isOpen (s : Scalar) (tag : String) : Bool :=
  s.style = .plain || (s.style = .literal && s.tag = some (Scanner.coreTag tag))

/-- the value as a number of up to 64 bits -/
def Value.toNat? (v : Value) : Option Nat :=
  match v.content with
  | .scalar s => if s.isOpen "int" then unsigned? 0xFFFFFFFFFFFFFFFF s.text.toList else none
  | _ => none

def Value.toBool? (v : Value) : Option Bool :=
  match v.content with
  | .scalar s => if s.isOpen "bool" then boolean? s.text else none
  | _ => none

end ScriptTriage.Yaml

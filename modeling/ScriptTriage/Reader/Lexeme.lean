import ScriptTriage.Number.Literal
import ScriptTriage.Reader.Chars
import ScriptTriage.Text.Escape

/-
How many characters the tokens at the head of a text take. Each function answers with a length, zero for no match,
and always finds the longest match.
-/

namespace ScriptTriage.Reader

open ScriptTriage.Number (isOctalDigit)
open ScriptTriage.Text (isHexDigit)

/-- the characters in front that satisfy a test -/
def runLength (p : Char → Bool) (cs : List Char) : Nat := (cs.takeWhile p).length

/-- a `\u` escape: four digits, or any number of digits in braces -/
def unicodeEscapeLength : List Char → Nat
  | '\\' :: 'u' :: '\x7b' :: rest =>
    let n := runLength isHexDigit rest
    if 0 < n && (rest.drop n).head? = some '\x7d' then n + 4 else 0
  | '\\' :: 'u' :: rest => if 4 ≤ runLength isHexDigit (rest.take 4) then 6 else 0
  | _ => 0

/-- the rest of a name: name characters and `\u` escapes -/
def nameTailLength : List Char → Nat
  | [] => 0
  | c :: cs =>
    if isNamePart c then nameTailLength cs + 1
    else
      let n := unicodeEscapeLength (c :: cs)
      if n = 0 then 0 else nameTailLength (cs.drop (n - 1)) + n
termination_by cs => cs.length
decreasing_by all_goals (simp only [List.length_cons, List.length_drop]; omega)

def nameLength : List Char → Nat
  | [] => 0
  | c :: cs =>
    if isNameStart c then nameTailLength cs + 1
    else
      let n := unicodeEscapeLength (c :: cs)
      if n = 0 then 0 else nameTailLength (cs.drop (n - 1)) + n

/-- a private name: `#` and a name -/
def privateNameLength : List Char → Nat
  | '#' :: cs =>
    let n := nameLength cs
    if n = 0 then 0 else n + 1
  | _ => 0

/-- digits, each of which may stand behind one underscore -/
def digitTailLength (p : Char → Bool) : List Char → Nat
  | '_' :: d :: cs => if p d then digitTailLength p cs + 2 else 0
  | d :: cs => if p d then digitTailLength p cs + 1 else 0
  | [] => 0

/-- digits with single underscores between them -/
def digitsLength (p : Char → Bool) : List Char → Nat
  | d :: cs => if p d then digitTailLength p cs + 1 else 0
  | [] => 0

/-- an exponent: `e`, an optional sign, digits -/
def exponentLength : List Char → Nat
  | c :: cs =>
    if c = 'e' || c = 'E' then
      let sign := match cs with
        | s :: _ => if s = '+' || s = '-' then 1 else 0
        | [] => 0
      let n := digitsLength isAsciiDigit (cs.drop sign)
      if n = 0 then 0 else n + sign + 1
    else 0
  | [] => 0

/-- the integer part of a decimal number with a point or an exponent: no leading zero but one -/
def integerPartLength : List Char → Nat
  | '0' :: c :: cs => if '1' ≤ c && c ≤ '9' then digitTailLength isAsciiDigit cs + 2 else 1
  | '0' :: [] => 1
  | c :: cs => if '1' ≤ c && c ≤ '9' then digitTailLength isAsciiDigit cs + 1 else 0
  | [] => 0

/-- what a point or an exponent adds behind `n` digits of integer part -/
def fractionalLength (cs : List Char) (n : Nat) : Nat :=
  match cs.drop n with
  | '.' :: rest =>
    let d := digitsLength isAsciiDigit rest
    n + 1 + d + exponentLength (rest.drop d)
  | rest =>
    let e := exponentLength rest
    if e = 0 then 0 else n + e

/-- a number that starts with a point -/
def pointLength : List Char → Nat
  | '.' :: cs =>
    let d := digitsLength isAsciiDigit cs
    if d = 0 then 0 else d + 1 + exponentLength (cs.drop d)
  | _ => 0

/-- one more for the suffix of a big integer -/
def bigSuffix (cs : List Char) (n : Nat) : Nat :=
  if n = 0 then 0 else if (cs.drop n).head? = some 'n' then n + 1 else n

/-- a number with the prefix of a base -/
def prefixedLength : List Char → Nat
  | '0' :: c :: cs =>
    let p : Option (Char → Bool) :=
      if c = 'x' || c = 'X' then some isHexDigit
      else if c = 'o' || c = 'O' then some isOctalDigit
      else if c = 'b' || c = 'B' then some fun d => d = '0' || d = '1'
      else none
    match p with
    | some p =>
      let n := digitsLength p cs
      if n = 0 then 0 else n + 2
    | none => 0
  | _ => 0

/-- a number: the longest of its notations -/
def numberLength (cs : List Char) : Nat :=
  let whole := integerPartLength cs
  let decimal := if whole = 0 then 0 else max (fractionalLength cs whole) (fractionalLength cs 1)
  max (max (bigSuffix cs (prefixedLength cs)) (bigSuffix cs (digitsLength isAsciiDigit cs)))
    (max decimal (pointLength cs))

/-- the length up to and including the end of a block comment -/
def blockCommentTail : List Char → Nat → Option Nat
  | '*' :: '/' :: _, n => some (n + 2)
  | _ :: cs, n => blockCommentTail cs (n + 1)
  | [], _ => none

/-- a comment of either form -/
def commentLength : List Char → Nat
  | '/' :: '/' :: cs => runLength (fun c => !(c = '\r' || isLineBreak c)) cs + 2
  | '/' :: '*' :: cs => (blockCommentTail cs 2).getD 0
  | _ => 0

/-- a comment in the manner of HTML, up to the end of its line -/
def markupCommentLength : List Char → Nat
  | '<' :: '!' :: '-' :: '-' :: cs => runLength (fun c => !(c = '\x00' || isLineBreak c)) cs + 4
  | '-' :: '-' :: '>' :: cs => runLength (fun c => !(c = '\x00' || isLineBreak c)) cs + 3
  | _ => 0

/-- an escape sequence in a string or template -/
def escapeLength (cs : List Char) : Nat :=
  match cs with
  | '\\' :: c :: rest =>
    if isOctalDigit c then runLength isOctalDigit ((c :: rest).take 3) + 1
    else if c = 'x' then if 2 ≤ runLength isHexDigit (rest.take 2) then 4 else 0
    else if c = 'u' then unicodeEscapeLength cs
    else if (c = '\r' || c = '?') && (rest.head?.any isLineBreak) then 3
    else 2
  | _ => 0

/-- the characters of a template up to the next backquote, backslash or substitution; nothing if the text ends -/
def templateCharsLength : List Char → Nat → Option Nat
  | [], _ => none
  | c :: cs, n =>
    if c = '\x00' then none
    else if c = '\x60' || c = '\\' then some n
    else if c = '$' && cs.head? = some '\x7b' then some n
    else templateCharsLength cs (n + 1)

/-- a class in a regular expression, behind its opening bracket; nothing if it is not closed on the line -/
def regexClassLength : List Char → Nat → Option Nat
  | [], _ => none
  | '\\' :: c :: cs, n => if c = '\n' then none else regexClassLength cs (n + 2)
  | c :: cs, n =>
    if c = ']' then some (n + 1) else if c = '\n' || c = '\\' then none else regexClassLength cs (n + 1)

/-- the pattern of a regular expression -/
def regexPatternLength : List Char → Nat
  | [] => 0
  | '\\' :: c :: cs => if c = '\n' then 0 else regexPatternLength cs + 2
  | c :: cs =>
    if c = '[' then
      match regexClassLength cs 1 with
      | some n => regexPatternLength (cs.drop (n - 1)) + n
      | none => 0
    else if c = '/' || c = '\\' || c = '\n' then 0
    else regexPatternLength cs + 1
termination_by cs => cs.length
decreasing_by all_goals (simp only [List.length_cons, List.length_drop]; omega)

/-- the operators and brackets, longer ones first -/
def punctuators : List String :=
  [">>>=", "...", "===", "!==", "**=", "<<=", ">>=", ">>>", "&&=", "||=", "??=", "=>", "==", "!=", "<=", ">=", "&&",
    "||", "??", "?.", "++", "--", "+=", "-=", "*=", "/=", "%=", "&=", "|=", "^=", "<<", ">>", "**", "\x7b", "\x7d",
    "(", ")", "[", "]", ";", ",", "<", ">", "+", "-", "*", "/", "%", "&", "|", "^", "!", "~", "=", ":", ".", "@",
    "\x60", "\"", "'"]

/-- the same, as characters -/
def punctuatorTable : List (List Char × String) := punctuators.map fun p => (p.toList, p)

/-- the longest operator or bracket in front -/
def punctuator? (cs : List Char) : Option String :=
  (punctuatorTable.find? fun p => p.1.isPrefixOf cs).map (·.2)

end ScriptTriage.Reader

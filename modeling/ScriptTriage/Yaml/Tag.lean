import ScriptTriage.Text.Utf8
import ScriptTriage.Yaml.Scalar

/-
Directives and tags. A directive tells the version of YAML or what a tag handle stands for; any other is refused. A
tag is written in full between angle brackets, or as a handle and what follows it, where `%` and two digits spell a
byte.
-/

namespace ScriptTriage.Yaml

/-- a character of the name of an anchor, a directive or a tag handle -/
def isNameChar (c : Char) : Bool :=
  ('a' ≤ c && c ≤ 'z') || ('A' ≤ c && c ≤ 'Z') || ('0' ≤ c && c ≤ '9') || c = '-' || c = '_'

/-- brackets and commas stand in a tag only between angle brackets -/
def isUriChar (verbatim : Bool) (c : Char) : Bool :=
  isNameChar c || ";/?:@&=+$.%!~*\x27()".toList.contains c || (verbatim && [',', '[', ']'].contains c)

/-- the byte that `%` and two digits spell -/
def escapedByte? : List Char → Option Nat
  | '%' :: a :: b :: _ => Number.digitsValue 16 [a, b] 0
  | _ => none

/-- how many bytes of a character follow its first one -/
def followingBytes? (first : Nat) : Option Nat :=
  if first < 0x80 then some 0
  else if 0xC0 ≤ first && first < 0xE0 then some 1
  else if 0xE0 ≤ first && first < 0xF0 then some 2
  else if 0xF0 ≤ first && first < 0xF8 then some 3
  else none

/-- read a tag, or what a handle stands for; of an escaped character, `pending` bytes are still to come -/
def readUri (verbatim : Bool) (context : String × Mark) :
    (fuel : Nat) → (pending : Nat) → Cursor → List UInt8 → Except Fault (List UInt8 × Cursor)
  | 0, _, c, bytes => .ok (bytes, c)
  | fuel + 1, pending, c, bytes =>
    let refused (problem : String) : Except Fault (List UInt8 × Cursor) :=
      .error { problem, mark := c.mark, context := some context }
    if 0 < pending || c.rest.head? = some '%' then
      match escapedByte? c.rest with
      | none => refused "did not find URI escaped octet"
      | some byte =>
        let go (pending : Nat) := readUri verbatim context fuel pending (c.skip 3) (bytes ++ [UInt8.ofNat byte])
        if pending = 0 then
          match followingBytes? byte with
          | some n => go n
          | none => refused "found an incorrect leading UTF-8 octet"
        else if byte < 0x80 || 0xC0 ≤ byte then refused "found an incorrect trailing UTF-8 octet"
        else go (pending - 1)
    else
      match c.rest with
      | ch :: _ =>
        if isUriChar verbatim ch then readUri verbatim context fuel 0 (c.skip 1) (bytes ++ String.utf8EncodeChar ch)
        else .ok (bytes, c)
      | [] => .ok (bytes, c)

/-- read a tag, or what a handle stands for, which may not be empty -/
def readUriText (verbatim : Bool) (context : String × Mark) (c : Cursor) : Except Fault (String × Cursor) :=
  (readUri verbatim context (c.rest.length + 1) 0 c []).bind fun (bytes, stop) =>
    if bytes.isEmpty then
      .error { problem := "did not find expected tag URI", mark := stop.mark, context := some context }
    else .ok (Text.decodeLossy bytes, stop)

/-- read an exclamation mark, a name and perhaps another exclamation mark -/
def readHandle (context : String) (start : Mark) (c : Cursor) : Except Fault (List Char × Cursor) :=
  match c.rest with
  | '!' :: rest =>
    let name := rest.takeWhile isNameChar
    if (rest.drop name.length).head? = some '!' then .ok ('!' :: name ++ ['!'], c.skip (name.length + 2))
    else .ok ('!' :: name, c.skip (name.length + 1))
  | _ => .error { problem := "did not find expected '!'", mark := c.mark, context := some (context, start) }

/-- does it end in an exclamation mark other than its first one? -/
def isNamedHandle (handle : List Char) : Bool := 1 < handle.length && handle.getLast? = some '!'

/-- the handle and the rest of a tag; a tag without a handle is complete as it stands -/
structure WrittenTag where
  handle : String
  rest : String
deriving DecidableEq, Repr

def readTag (inFlow : Bool) (c : Cursor) : Except Fault (WrittenTag × Cursor) :=
  let scanning := "while scanning a tag"
  let context := ("while parsing a tag", c.mark)
  let tag : Except Fault (WrittenTag × Cursor) :=
    if c.rest.take 2 = ['!', '<'] then
      (readUriText true context (c.skip 2)).bind fun (text, stop) =>
        if stop.rest.head? = some '>' then .ok (⟨"", text⟩, stop.skip 1)
        else
          .error { problem := "did not find the expected '>'", mark := stop.mark, context := some (scanning, c.mark) }
    else
      (readHandle scanning c.mark c).bind fun (handle, behind) =>
        if isNamedHandle handle then
          (readUriText false context behind).map fun (text, stop) => (⟨String.ofList handle, text⟩, stop)
        else
          -- what looked like a handle is the start of the tag
          (readUri false context (behind.rest.length + 1) 0 behind []).map fun (bytes, stop) =>
            let text := String.ofList (handle.drop 1) ++ Text.decodeLossy bytes
            (if text.isEmpty then ⟨"", "!"⟩ else ⟨"!", text⟩, stop)
  tag.bind fun (tag, stop) =>
    if endsWord stop.rest || (inFlow && stop.rest.head? = some ',') then .ok (tag, stop)
    else
      .error { problem := "did not find expected whitespace or line break", mark := stop.mark
               context := some (scanning, c.mark) }

inductive Directive where
  | version (major minor : Nat)
  /-- what a tag handle stands for -/
  | handle (handle text : String)
deriving DecidableEq, Repr

def readVersionNumber (start : Mark) (c : Cursor) : Except Fault (Nat × Cursor) :=
  let context := some ("while scanning a %YAML directive", start)
  let digits := c.rest.takeWhile fun ch => '0' ≤ ch && ch ≤ '9'
  if 9 < digits.length then
    .error { problem := "found extremely long version number", mark := (c.skip 9).mark, context }
  else
    match digits, Number.digitsValue 10 digits 0 with
    | _ :: _, some n => .ok (n, c.skip digits.length)
    | _, _ => .error { problem := "did not find expected version number", mark := c.mark, context }

def readVersion (start : Mark) (c : Cursor) : Except Fault (Directive × Cursor) :=
  (readVersionNumber start c.skipBlanks).bind fun (major, behind) =>
    if behind.rest.head? = some '.' then
      (readVersionNumber start (behind.skip 1)).map fun (minor, stop) => (.version major minor, stop)
    else
      .error { problem := "did not find expected digit or '.' character", mark := behind.mark
               context := some ("while scanning a %YAML directive", start) }

def readHandleDirective (start : Mark) (c : Cursor) : Except Fault (Directive × Cursor) :=
  let refused (problem : String) (place : Cursor) (context : String) : Except Fault (Directive × Cursor) :=
    .error { problem, mark := place.mark, context := some (context, start) }
  (readHandle "while scanning a tag directive" start c.skipBlanks).bind fun (handle, behind) =>
    if handle ≠ ['!'] && !isNamedHandle handle then
      refused "did not find expected '!'" behind "while parsing a tag directive"
    else if !behind.atBlank then refused "did not find expected whitespace" behind "while scanning a %TAG directive"
    else
      (readUriText true ("while parsing a %TAG directive", start) behind.skipBlanks).bind fun (text, stop) =>
        if endsWord stop.rest then .ok (.handle (String.ofList handle) text, stop)
        else refused "did not find expected whitespace or line break" stop "while scanning a %TAG directive"

/-- read a directive from its `%` on: the directive, the place behind it, and the start of the next line -/
def readDirective (c : Cursor) : Except Fault (Directive × Mark × Cursor) :=
  let refused {α : Type} (problem : String) (place : Cursor) : Except Fault α :=
    .error { problem, mark := place.mark, context := some ("while scanning a directive", c.mark) }
  let name := (c.rest.drop 1).takeWhile isNameChar
  let behind := c.skip (name.length + 1)
  if name.isEmpty then refused "could not find expected directive name" behind
  else if !endsWord behind.rest then refused "found unexpected non-alphabetical character" behind
  else
    let directive : Except Fault (Directive × Cursor) :=
      if name = "YAML".toList then readVersion c.mark behind
      else if name = "TAG".toList then readHandleDirective c.mark behind
      else refused "found unknown directive name" behind
    directive.bind fun (directive, stop) =>
      let lineEnd := if stop.skipBlanks.rest.head? = some '#' then stop.skipBlanks.skipLine else stop.skipBlanks
      if lineEnd.atLineEnd then .ok (directive, stop.mark, lineEnd.skipBreak)
      else refused "did not find expected comment or line break" lineEnd

end ScriptTriage.Yaml

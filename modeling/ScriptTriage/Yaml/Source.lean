/-
Places in a YAML document and what can be wrong there. Lines and columns count from zero inside and are told from
one; the very start of a document is never told.
-/

namespace ScriptTriage.Yaml

/-- a place: characters from the start, lines, and characters from the start of the line -/
structure Mark where
  index : Nat
  line : Nat
  column : Nat
deriving DecidableEq, Repr, Inhabited

namespace Mark

def origin : Mark := ⟨0, 0, 0⟩

/-- is it the first column of the first line? -/
def isOrigin (m : Mark) : Bool := m.line == 0 && m.column == 0

def describe (m : Mark) : String := "line " ++ toString (m.line + 1) ++ " column " ++ toString (m.column + 1)

/-- the place behind a message, unless it is the start of the document -/
def suffix (m : Mark) : String := if m.isOrigin then "" else " at " ++ m.describe

/-- the start of the next line, behind a break of `n` characters -/
def nextLine (m : Mark) (n : Nat) : Mark := ⟨m.index + n, m.line + 1, 0⟩

end Mark

/-- a document that breaks the rules: the problem, and what was being read -/
structure Fault where
  problem : String
  mark : Mark
  context : Option (String × Mark) := none
deriving DecidableEq, Repr

/-- the text for the user; the place of the context is told only if it differs from that of the problem -/
def Fault.message (f : Fault) : String :=
  f.problem ++ f.mark.suffix ++
    match f.context with
    | some (context, mark) =>
      ", " ++ context ++ if mark.line = f.mark.line && mark.column = f.mark.column then "" else mark.suffix
    | none => ""

/-- may the character stand in a document? -/
def isPrintable (c : Char) : Bool :=
  ['\t', '\n', '\r', '\u0085'].contains c || (' ' ≤ c && c ≤ '~') || ('\u00A0' ≤ c && c ≤ '\uFFFD') || '\uFFFF' < c

/-- the fault of the first character that may not stand in a document; its place is told in bytes -/
def controlFault? (offset : Nat) : List Char → Option Fault
  | [] => none
  | c :: cs =>
    if isPrintable c then controlFault? (offset + c.utf8Size) cs
    else
      let place := if offset = 0 then "" else " at position " ++ toString offset
      some { problem := "control characters are not allowed" ++ place, mark := .origin }

def isBreak (c : Char) : Bool := c = '\n' || c = '\r' || c = '\u0085' || c = '\u2028' || c = '\u2029'

def isBlank (c : Char) : Bool := c = ' ' || c = '\t'

/-- does the text end, or start with a blank or a line break? -/
def endsWord : List Char → Bool
  | [] => true
  | c :: _ => isBlank c || isBreak c

/-- a place in a document and what follows it -/
structure Cursor where
  rest : List Char
  mark : Mark
deriving Inhabited

namespace Cursor

/-- the start of a document; a byte-order mark does not count -/
def ofString (s : String) : Cursor :=
  match s.toList with
  | '\uFEFF' :: rest => ⟨rest, .origin⟩
  | cs => ⟨cs, .origin⟩

/-- go forward over characters that are no line breaks -/
def skip (c : Cursor) (n : Nat) : Cursor :=
  ⟨c.rest.drop n, { c.mark with index := c.mark.index + n, column := c.mark.column + n }⟩

/-- go forward over one line break, if there is one -/
def skipBreak (c : Cursor) : Cursor :=
  match c.rest with
  | '\r' :: '\n' :: rest => ⟨rest, c.mark.nextLine 2⟩
  | ch :: rest => if isBreak ch then ⟨rest, c.mark.nextLine 1⟩ else c
  | [] => c

/-- the line break in front, as it is kept in a text -/
def breakText (c : Cursor) : List Char :=
  match c.rest with
  | ch :: _ => if ch = '\u2028' || ch = '\u2029' then [ch] else ['\n']
  | [] => []

def atBreak (c : Cursor) : Bool := c.rest.head?.any isBreak

def atBlank (c : Cursor) : Bool := c.rest.head?.any isBlank

/-- does the line or the document end here? -/
def atLineEnd (c : Cursor) : Bool := c.rest.head?.all isBreak

def skipBlanks (c : Cursor) : Cursor := c.skip (c.rest.takeWhile isBlank).length

def skipLine (c : Cursor) : Cursor := c.skip (c.rest.takeWhile fun ch => !isBreak ch).length

/-- a mark of three characters between documents -/
def atDocumentMark (c : Cursor) (mark : Char) : Bool :=
  c.mark.column == 0 && c.rest.take 3 == [mark, mark, mark] && endsWord (c.rest.drop 3)

def atDocumentEdge (c : Cursor) : Bool := c.atDocumentMark '-' || c.atDocumentMark '.'

end Cursor

end ScriptTriage.Yaml

import ScriptTriage.Number.Radix
import ScriptTriage.Yaml.Source

/-
Scalars in their five styles. Line breaks inside a flow scalar are folded: a single one becomes a blank, of several
the first one is dropped. Block scalars keep them, or fold them between lines that start without a blank.
-/

namespace ScriptTriage.Yaml

inductive Style where
  | plain
  | singleQuoted
  | doubleQuoted
  | literal
  | folded
deriving DecidableEq, Repr

/-- a scalar: its text, how it is written, and its tag -/
structure Scalar where
  text : String
  style : Style
  tag : Option String := none
deriving DecidableEq, Repr

/-- the blanks and line breaks between two words of a flow scalar -/
structure Gap where
  blanks : List Char := []
  firstBreak : List Char := []
  moreBreaks : List Char := []
  crossed : Bool := false

/-- what a gap adds to the text -/
def Gap.text (g : Gap) : List Char :=
  if !g.crossed then g.blanks
  else if g.firstBreak = ['\n'] then if g.moreBreaks.isEmpty then [' '] else g.moreBreaks
  else g.firstBreak ++ g.moreBreaks

/-- read a gap; blanks at the start of a line do not count. A tab at the start of a line stands in the way if it is
left of `indent`. -/
def readGap (indent : Nat) : (fuel : Nat) → Cursor → Gap → Cursor × Gap
  | 0, c, g => (c, g)
  | fuel + 1, c, g =>
    if c.atBlank then
      if g.crossed && c.mark.column < indent && c.rest.head? = some '\t' then (c, g)
      else
        readGap indent fuel (c.skip 1) (if g.crossed then g else { g with blanks := g.blanks ++ c.rest.take 1 })
    else if c.atBreak then
      readGap indent fuel c.skipBreak
        (if g.crossed then { g with moreBreaks := g.moreBreaks ++ c.breakText }
        else { g with blanks := [], firstBreak := c.breakText, crossed := true })
    else (c, g)

/-- the brackets and the comma that end a plain scalar in a flow collection -/
def isFlowMark (c : Char) : Bool := [',', '[', ']', '\x7b', '\x7d'].contains c

/-- the characters of a plain scalar up to a blank, a colon that ends it, or a bracket in a flow collection -/
def plainWordLength (inFlow : Bool) : List Char → Nat
  | [] => 0
  | c :: cs =>
    if isBlank c || isBreak c then 0
    else if c = ':' && (endsWord cs || (inFlow && cs.head?.any fun d => isFlowMark d || d = '?')) then 0
    else if inFlow && isFlowMark c then 0
    else plainWordLength inFlow cs + 1

/-- a plain scalar: the text, the place behind its last word, the place behind the gap that follows, and whether that
gap crosses a line -/
structure PlainText where
  text : List Char
  stop : Mark
  cursor : Cursor
  crossed : Bool

/-- read a plain scalar whose lines have to start at `indent` or behind -/
def readPlain (inFlow : Bool) (indent : Nat) (start : Mark) :
    (fuel : Nat) → Cursor → (stop : Mark) → List Char → Gap → Except Fault PlainText
  | 0, c, stop, text, gap => .ok ⟨text, stop, c, gap.crossed⟩
  | fuel + 1, c, stop, text, gap =>
    if c.atDocumentEdge || c.rest.head? = some '#' then .ok ⟨text, stop, c, gap.crossed⟩
    else
      let n := plainWordLength inFlow c.rest
      let word := c.rest.take n
      let behind := c.skip n
      if behind.rest.head? = some ':' && !endsWord (behind.rest.drop 1) then
        .error { problem := "found unexpected ':'", mark := behind.mark,
                 context := some ("while scanning a plain scalar", start) }
      else
        let text := if n = 0 then text else text ++ gap.text ++ word
        let stop := if n = 0 then stop else behind.mark
        let gap := if n = 0 then gap else {}
        if !behind.atBlank && !behind.atBreak then .ok ⟨text, stop, behind, gap.crossed⟩
        else
          let (next, gap) := readGap indent fuel behind gap
          if next.atBlank then
            .error { problem := "found a tab character that violates indentation", mark := next.mark,
                     context := some ("while scanning a plain scalar", start) }
          else if !inFlow && next.mark.column < indent then .ok ⟨text, stop, next, gap.crossed⟩
          else readPlain inFlow indent start fuel next stop text gap

/-- the characters that a backslash and one letter stand for -/
def simpleEscape? : Char → Option Char
  | '0' => some '\x00'
  | 'a' => some '\x07'
  | 'b' => some '\x08'
  | 't' => some '\t'
  | '\t' => some '\t'
  | 'n' => some '\n'
  | 'v' => some '\x0b'
  | 'f' => some '\x0c'
  | 'r' => some '\r'
  | 'e' => some '\x1b'
  | ' ' => some ' '
  | '\x22' => some '\x22'
  | '/' => some '/'
  | '\\' => some '\\'
  | 'N' => some '\u0085'
  | '_' => some '\u00A0'
  | 'L' => some '\u2028'
  | 'P' => some '\u2029'
  | _ => none

/-- the number of digits behind a backslash and this letter -/
def escapeWidth? : Char → Option Nat
  | 'x' => some 2
  | 'u' => some 4
  | 'U' => some 8
  | _ => none

/-- an escape in double quotes, behind its backslash: the character and how many characters spell it -/
def readEscape (start : Mark) (c : Cursor) : Except Fault (Char × Nat) :=
  let fault (problem : String) : Fault :=
    { problem, mark := c.mark, context := some ("while parsing a quoted scalar", start) }
  match c.rest with
  | [] => .error (fault "found unknown escape character")
  | letter :: rest =>
    match simpleEscape? letter, escapeWidth? letter with
    | some ch, _ => .ok (ch, 1)
    | none, some width =>
      match (Number.digitsValue 16 (rest.take width) 0), decide (width ≤ rest.length) with
      | some n, true =>
        if h : n.isValidChar then .ok (Char.ofNatAux n h, width + 1)
        else .error (fault "found invalid Unicode character escape code")
      | _, _ => .error (fault "did not find expected hexdecimal number")
    | none, none => .error (fault "found unknown escape character")

/-- read a quoted scalar behind its opening quote -/
def readQuoted (double : Bool) (start : Mark) : (fuel : Nat) → Cursor → List Char → Except Fault (List Char × Cursor)
  | 0, c, text => .ok (text, c)
  | fuel + 1, c, text =>
    let quote := if double then '\x22' else '\x27'
    let fault (problem : String) : Fault :=
      { problem, mark := c.mark, context := some ("while scanning a quoted scalar", start) }
    if c.atDocumentEdge then .error (fault "found unexpected document indicator")
    else
      match c.rest with
      | [] => .error (fault "found unexpected end of stream")
      | ch :: rest =>
        if isBlank ch || isBreak ch then
          let (next, gap) := readGap 0 (fuel + 1) c {}
          readQuoted double start fuel next (text ++ gap.text)
        else if !double && ch = quote && rest.head? = some quote then
          readQuoted double start fuel (c.skip 2) (text ++ [quote])
        else if ch = quote then .ok (text, c.skip 1)
        else if double && ch = '\\' then
          if (c.skip 1).atBreak then
            let next := (c.skip 1).skipBreak
            let (next, gap) := readGap 0 (fuel + 1) next { crossed := true }
            readQuoted double start fuel next (text ++ gap.moreBreaks)
          else
            match readEscape start (c.skip 1) with
            | .ok (escaped, n) => readQuoted double start fuel (c.skip (n + 1)) (text ++ [escaped])
            | .error f => .error f
        else readQuoted double start fuel (c.skip 1) (text ++ [ch])

/-- what is kept of the line breaks at the end of a block scalar -/
inductive Chomping where
  | strip
  | clip
  | keep
deriving DecidableEq, Repr

/-- the header of a block scalar: chomping and an indentation, in either order -/
structure BlockHeader where
  chomping : Chomping := .clip
  increment : Option Nat := none

def readHeader : List Char → BlockHeader → Nat → BlockHeader × Nat
  | [], h, n => (h, n)
  | c :: cs, h, n =>
    if c = '+' then readHeader cs { h with chomping := .keep } (n + 1)
    else if c = '-' then readHeader cs { h with chomping := .strip } (n + 1)
    else if '1' ≤ c && c ≤ '9' then readHeader cs { h with increment := some (c.toNat - '0'.toNat) } (n + 1)
    else (h, n)

/-- read empty lines in front of a line of a block scalar; without a known indentation the widest one is noted -/
def readEmptyLines (indent : Option Nat) : (fuel : Nat) → Cursor → (breaks : List Char) → (widest : Nat) →
    Cursor × List Char × Nat
  | 0, c, breaks, widest => (c, breaks, widest)
  | fuel + 1, c, breaks, widest =>
    let spaces := (c.rest.takeWhile (· = ' ')).length
    let n := match indent with
      | some indent => min spaces (indent - c.mark.column)
      | none => spaces
    let c := c.skip n
    let widest := max widest c.mark.column
    if c.atBreak then readEmptyLines indent fuel c.skipBreak (breaks ++ c.breakText) widest else (c, breaks, widest)

structure BlockText where
  text : List Char := []
  leadingBreak : List Char := []
  trailingBreaks : List Char := []
  leadingBlank : Bool := false

/-- read the lines of a block scalar at an indentation -/
def readLines (isLiteral : Bool) (indent : Nat) : (fuel : Nat) → Cursor → BlockText → Cursor × BlockText
  | 0, c, b => (c, b)
  | fuel + 1, c, b =>
    if c.mark.column ≠ indent || c.rest.isEmpty then (c, b)
    else
      let trailingBlank := c.atBlank
      let join :=
        if !isLiteral && b.leadingBreak = ['\n'] && !b.leadingBlank && !trailingBlank then
          if b.trailingBreaks.isEmpty then [' '] else []
        else b.leadingBreak
      let line := c.rest.takeWhile fun ch => !isBreak ch
      let behind := c.skip line.length
      let (next, breaks, _) := readEmptyLines (some indent) fuel behind.skipBreak [] 0
      readLines isLiteral indent fuel next
        { text := b.text ++ join ++ b.trailingBreaks ++ line
          leadingBreak := if behind.atBreak then behind.breakText else []
          trailingBreaks := breaks
          leadingBlank := trailingBlank }

/-- read a block scalar behind its mark, inside a collection at the column `parent` -/
def readBlock (isLiteral : Bool) (parent : Int) (start : Mark) (c : Cursor) : Except Fault (List Char × Cursor) :=
  let fuel := c.rest.length + 1
  let (header, n) := readHeader c.rest {} 0
  let c := (c.skip n).skipBlanks
  let c := if c.rest.head? = some '#' then c.skipLine else c
  if !c.atLineEnd then
    .error { problem := "did not find expected comment or line break", mark := c.mark,
             context := some ("while scanning a block scalar", start) }
  else
    let c := c.skipBreak
    let given := header.increment.map fun n => if 0 ≤ parent then parent.toNat + n else n
    let (c, breaks, widest) := readEmptyLines given fuel c [] 0
    let indent := given.getD (max widest (max (parent + 1).toNat 1))
    let (c, b) := readLines isLiteral indent fuel c { trailingBreaks := breaks }
    let tail := match header.chomping with
      | .strip => []
      | .clip => b.leadingBreak
      | .keep => b.leadingBreak ++ b.trailingBreaks
    .ok (b.text ++ tail, c)

end ScriptTriage.Yaml

import ScriptTriage.Reader.Lexeme
import ScriptTriage.Reader.Semicolon
import ScriptTriage.Tree

/-
Tokens. What the next token is depends on what may stand there: behind an operand a slash divides, elsewhere it
starts a regular expression; a semicolon may be implied only where a statement may end; comments in the manner of
HTML are known only where neither an operator nor an implied semicolon is possible.
-/

namespace ScriptTriage.Reader

/-- a place in a script and what follows it -/
structure Cursor where
  rest : List Char
  point : Point
deriving Inhabited

namespace Cursor

def ofString (s : String) : Cursor := ⟨s.toList, .origin⟩

/-- go forward over `n` characters -/
def advance (c : Cursor) : Nat → Cursor
  | 0 => c
  | n + 1 =>
    match c.rest with
    | [] => c
    | ch :: rest => advance ⟨rest, c.point.step ch⟩ n

theorem rest_advance (c : Cursor) (n : Nat) : (c.advance n).rest = c.rest.drop n := by
  induction n generalizing c with
  | zero => simp [advance]
  | succ n ih =>
    rw [advance]
    split
    · next h => simp [h]
    · next h => simp [h, ih]

def skipBlanks (c : Cursor) : Cursor := c.advance (runLength isBlank c.rest)

end Cursor

inductive TokenSort where
  | word
  | privateName
  | number
  | punctuator
  /-- a semicolon that is not written -/
  | impliedSemicolon
  /-- the question mark of a conditional -/
  | question
  | endOfScript
  | unknown
deriving DecidableEq, Repr

/-- a token and the places before and behind it -/
structure Token where
  sort : TokenSort
  text : String
  start : Cursor
  stop : Cursor

namespace Token

def span (t : Token) : Span := ⟨t.start.point, t.stop.point⟩

/-- is it this operator or bracket? -/
def isMark (t : Token) (text : String) : Bool := t.sort == .punctuator && t.text == text

def isWord (t : Token) (text : String) : Bool := t.sort == .word && t.text == text

/-- a token of `n` characters -/
def ofLength (sort : TokenSort) (c : Cursor) (n : Nat) : Token :=
  ⟨sort, String.ofList (c.rest.take n), c, c.advance n⟩

end Token

/-- what may stand at a place -/
structure Expectation where
  /-- a statement may end here, so a semicolon may be implied -/
  semicolon : Bool := false
  /-- an operator may follow what was read last -/
  operator : Bool := false
  /-- an operand may start here -/
  operand : Bool := true
deriving DecidableEq, Repr, Inhabited

namespace Expectation

/-- the start of an operand, or a place where only certain tokens may stand -/
def plain : Expectation := {}

def afterOperand (semicolon : Bool) : Expectation := { semicolon, operator := true, operand := false }

/-- behind something that ends a statement or is followed by certain tokens only -/
def mayEnd (operator : Bool) : Expectation := { semicolon := true, operator }

end Expectation

/-- the next token, the comments in front of it (the last one first) and the place behind them -/
structure Lookahead where
  token : Token
  comments : List Tree
  base : Cursor

def commentTree (name : String) (c : Cursor) (n : Nat) : Tree :=
  .node (.other name) true true none ⟨c.point, (c.advance n).point⟩ []

/-- a token that starts right here -/
def tokenAt (operand : Bool) (c : Cursor) : Token :=
  let cs := c.rest
  match cs with
  | [] => ⟨.endOfScript, "", c, c⟩
  | ch :: _ =>
    let name := nameLength cs
    if 0 < name then .ofLength .word c name
    else
      let number := if operand || ch != '.' then numberLength cs else 0
      if 0 < number then .ofLength .number c number
      else
        let hidden := privateNameLength cs
        if 0 < hidden then .ofLength .privateName c hidden
        else if operand && (ch = '/' || ch = '<') then .ofLength .punctuator c 1
        else
          match punctuator? cs with
          | some p => ⟨.punctuator, p, c, c.advance p.length⟩
          | none => .ofLength .unknown c 1

/-- the question mark of a conditional, if one stands behind blanks that satisfy `blank` -/
def questionAt? (blank : Char → Bool) (c : Cursor) : Option Token :=
  let c := c.advance (runLength blank c.rest)
  if ternaryMark? c.rest = some 0 then some (.ofLength .question c 1) else none

/-- a token that does not come from the ordinary rules: an implied semicolon or a question mark -/
def specialToken? (e : Expectation) (c : Cursor) : Option Token :=
  if e.semicolon then
    match semicolonAt e.operator c.rest with
    | .found => some ⟨.impliedSemicolon, "", c, c⟩
    | .question => if e.operator then questionAt? (fun ch => isAsciiSpace ch || isLineBreak ch) c else none
    | .absent => none
  else if e.operator then questionAt? isAsciiSpace c
  else none

/-- an HTML-like comment behind blanks -/
def markupComment (c : Cursor) : Cursor × Nat :=
  let c := c.advance (runLength (fun ch => isAsciiSpace ch || isLineBreak ch) c.rest)
  (c, markupCommentLength c.rest)

theorem length_rest_advance_lt (c : Cursor) {n : Nat} (h₀ : 0 < n) (h : c.rest ≠ []) :
    (c.advance n).rest.length < c.rest.length := by
  have := List.length_pos_iff.2 h
  simp [Cursor.rest_advance]
  omega

theorem length_rest_advance_le (c : Cursor) (n : Nat) : (c.advance n).rest.length ≤ c.rest.length := by
  simp [Cursor.rest_advance]

theorem ne_nil_of_commentLength {cs : List Char} (h : 0 < commentLength cs) : cs ≠ [] := by
  rintro rfl
  simp [commentLength] at h

theorem ne_nil_of_markupCommentLength {cs : List Char} (h : 0 < markupCommentLength cs) : cs ≠ [] := by
  rintro rfl
  simp [markupCommentLength] at h

/-- the next token. Comments in front of it are collected, the last one first; behind each of them the search starts
again. `markup` allows comments in the manner of HTML. -/
def lookahead (e : Expectation) (markup : Bool) (c : Cursor) (comments : List Tree) : Lookahead :=
  match specialToken? e c with
  | some token => ⟨token, comments, c⟩
  | none =>
    let mark := markupComment c
    if _h : markup && !e.semicolon && !e.operator && 0 < mark.2 then
      lookahead e markup (mark.1.advance mark.2) (commentTree "html_comment" mark.1 mark.2 :: comments)
    else
      let start := c.skipBlanks
      let n := commentLength start.rest
      if _h : 0 < n then lookahead e markup (start.advance n) (commentTree "comment" start n :: comments)
      else ⟨tokenAt e.operand start, comments, c⟩
termination_by c.rest.length
decreasing_by
  · have h₁ : 0 < mark.2 := by simp at _h; exact _h.2
    have h₂ := length_rest_advance_lt mark.1 h₁ (ne_nil_of_markupCommentLength h₁)
    exact Nat.lt_of_lt_of_le h₂ (length_rest_advance_le c _)
  · have h₂ := length_rest_advance_lt start _h (ne_nil_of_commentLength _h)
    exact Nat.lt_of_lt_of_le h₂ (length_rest_advance_le c _)

def Cursor.next (c : Cursor) (e : Expectation) (markup : Bool) : Lookahead := lookahead e markup c []

end ScriptTriage.Reader

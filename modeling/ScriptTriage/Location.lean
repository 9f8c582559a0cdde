/-
Places in a script. Rows and columns count from zero, columns count UTF-8 bytes, and only a line feed starts a new
row; reported lines count from one.
-/

namespace ScriptTriage

/-- a place between two characters of the source: its row, its column and its byte offset -/
structure Point where
  row : Nat
  column : Nat
  offset : Nat
deriving DecidableEq, Repr, Inhabited

def Point.origin : Point := ⟨0, 0, 0⟩

def Point.step (p : Point) (c : Char) : Point :=
  if c = '\n' then ⟨p.row + 1, 0, p.offset + 1⟩
  else ⟨p.row, p.column + c.utf8Size, p.offset + c.utf8Size⟩

structure Span where
  start : Point
  stop : Point
deriving DecidableEq, Repr, Inhabited

/-- where a program node stands: lines from one, columns from zero -/
structure Location where
  startLine : Nat
  startColumn : Nat
  endLine : Nat
  endColumn : Nat
deriving DecidableEq, Repr, Inhabited

def Span.location (s : Span) : Location :=
  ⟨s.start.row + 1, s.start.column, s.stop.row + 1, s.stop.column⟩

end ScriptTriage

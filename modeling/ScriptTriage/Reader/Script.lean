import ScriptTriage.Reader.Machine

/-
Whole scripts: a first line that names an interpreter, then statements. What cannot be read as a statement is skipped
up to the next semicolon, kept as an error node, and the tree is marked.
-/

namespace ScriptTriage

namespace Reader

/-- steps enough for a script of `n` characters: a bounded number for each character, some of them taken again for
each choice that is undone -/
def stepBudget (n : Nat) : Nat := (n + 32) * (n + 32)

/-- what was read so far, the last piece first -/
structure Progress where
  state : State
  hasErrors : Bool

/-- go forward behind the next semicolon, or to the end of the script -/
def skipStatement : (fuel : Nat) → Cursor → Cursor
  | 0, c => c
  | fuel + 1, c =>
    let t := (c.next .plain false).token
    if t.sort = .endOfScript || t.isMark ";" then t.stop else skipStatement fuel t.stop

/-- skip what cannot be read: a token that starts no statement, else all up to the next semicolon -/
def skipUnreadable (fuel : Nat) (t : Token) : Cursor :=
  if t.sort = .unknown || [")", "]", "\x7d"].any t.isMark then t.stop else skipStatement fuel t.start

/-- read statements up to the end of the script; each takes at least one character -/
def readStatements (budget : Nat) : (fuel : Nat) → Progress → Progress
  | 0, p => p
  | fuel + 1, p =>
    let (t, s) := p.state.peek .plain
    if t.sort = .endOfScript then { p with state := s }
    else
      match readGoals budget [.statement .statement] s.cursor s.markup with
      | some read =>
        let s := s.gather read.frame
        readStatements budget fuel { p with state := { s with cursor := read.cursor, markup := read.markup } }
      | none =>
        let stop := skipUnreadable (fuel + 1) t
        let error : Tree := .node (.other "ERROR") true false none ⟨t.start.point, stop.point⟩ []
        readStatements budget fuel ⟨s.take { tree := error } stop, true⟩

/-- a first line that names an interpreter -/
def readInterpreterLine (s : State) : State :=
  let (t, s) := s.peek .plain
  if t.start.rest.take 2 = ['#', '!'] then
    let n := runLength (fun c => c ≠ '\n') t.start.rest
    { s with cursor := t.start }.shiftLength (.other "hash_bang_line") true n
  else s

end Reader

open Reader in
/-- the tree of a script; a broken one has error nodes in place of what was skipped, and the tree is marked -/
def SyntaxTree.ofString (source : String) : SyntaxTree :=
  let start := Cursor.ofString source
  let n := start.rest.length
  let s := readInterpreterLine ⟨start, true, [], [[]]⟩
  let p := readStatements (stepBudget n) (n + 1) ⟨s, false⟩
  let children := p.state.frame.reverse.map (·.tree)
  { root := .node (.other "program") true false none ⟨.origin, p.state.cursor.point⟩ children
    hasErrors := p.hasErrors }

end ScriptTriage

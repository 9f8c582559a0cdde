import ScriptTriage.Report

/-
Reports for people. Each script is a small tree under its path; long texts are cut, and colour only decorates.
-/

namespace ScriptTriage

/-- how a text is set off -/
inductive Style where
  | brightWhite
  | dim
  | brightCyan
  | brightYellow
  | brightRed
  | boldBrightRed
deriving DecidableEq, Repr

/-- the code that switches a style on -/
def Style.code : Style → String
  | .brightWhite => "97"
  | .dim => "2"
  | .brightCyan => "96"
  | .brightYellow => "93"
  | .brightRed => "91"
  | .boldBrightRed => "1;91"

/-- a text in a style, if there is colour -/
def Style.paint (style : Style) (color : Bool) (text : String) : String :=
  if color then "\x1b[" ++ style.code ++ "m" ++ text ++ "\x1b[0m" else text

/-- the mark behind a text that was cut -/
def ellipsis : Char := '…'

/-- the most characters shown of a text -/
def previewLength : Nat := 48

/-- at most `n` characters of a text, with a mark if there are more -/
def truncate (text : String) (n : Nat) : String :=
  let shown := text.toList.take n
  String.ofList (if n < text.toList.length then shown ++ [ellipsis] else shown)

/-- a short form: bytes in hexadecimal, two digits each, or text -/
def Candidate.preview : Candidate → String
  | .bytes data =>
    let shown := Text.hex (data.take (previewLength / 2))
    if previewLength / 2 < data.length then shown.push ellipsis else shown
  | .text value => truncate value previewLength

def BreakpointKind.style : BreakpointKind → Style
  | .assignment => .brightCyan
  | .loop => .brightYellow

def padRight (text : String) (width : Nat) : String :=
  text ++ String.ofList (List.replicate (width - text.length) ' ')

namespace Terminal

def line (text : String) : String := "│" ++ text ++ "\n"

def scopeMark (color : Bool) (scope : Scope) : String := Style.dim.paint color ("(" ++ scope.label ++ ")")

def binding (color : Bool) (b : Binding) : String := line ("       " ++ b.name ++ " " ++ scopeMark color b.scope)

def valueAssignment (color : Bool) (v : ValueAssignment) : String :=
  line ("       " ++ v.name ++ " = " ++ truncate v.raw previewLength ++ " " ++ scopeMark color v.scope)

def breakpoint (color : Bool) (b : Breakpoint) : String :=
  line ("       line " ++ padRight (toString b.line) 5 ++ " " ++ b.kind.style.paint color b.kind.name ++ " " ++
    scopeMark color b.scope)

def candidate (color : Bool) (c : Candidate) : String :=
  line ("       " ++ Style.brightRed.paint color c.preview ++ " " ++
    Style.dim.paint color ("[" ++ c.encoding ++ " " ++ toString c.length ++ "]"))

/-- a headed list; an empty one is left out -/
def listing (title : String) (lines : List String) : String :=
  if lines.isEmpty then "" else line ("     ≡ " ++ title) ++ String.join lines

def findings (color : Bool) (f : Findings) : String :=
  if f.isEmpty then line ("     " ++ Style.dim.paint color "nothing found")
  else
    listing "bindings" (f.bindings.map (binding color)) ++
      listing "literal assignments" (f.valueAssignments.map (valueAssignment color)) ++
      listing "breakpoints" (f.breakpoints.map (breakpoint color)) ++
      listing "shellcode candidates" (f.candidates.map (candidate color))

def script (color : Bool) (s : ScriptReport) : String :=
  "├─ " ++ Style.brightWhite.paint color s.path ++ "\n" ++ findings color s.findings ++ line ""

/-- the line about all scripts, if there are several and they hold candidates -/
def summary (color : Bool) (r : Report) : String :=
  if 1 < r.scripts.length && !r.registry.isEmpty then
    Style.brightWhite.paint color "Σ" ++ " " ++
      Style.boldBrightRed.paint color (toString r.registry.length) ++
      " distinct shellcode candidate(s) across " ++ toString r.scripts.length ++ " scripts\n"
  else ""

end Terminal

def Report.terminal (r : Report) (color : Bool) : String :=
  String.join (r.scripts.map (Terminal.script color)) ++ Terminal.summary color r

end ScriptTriage

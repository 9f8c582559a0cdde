import ScriptTriage.Findings
import ScriptTriage.Report.Json

/-
Reports: the findings of each script of a run, and the candidates of all of them. As a JSON document a report keeps
the order of everything; an empty registry is left out.
-/

namespace ScriptTriage

structure ScriptReport where
  path : String
  findings : Findings
deriving DecidableEq, Repr, Inhabited

/-- the scripts of a run, and the candidates found in any of them -/
structure Report where
  scripts : List ScriptReport
  registry : List Candidate
deriving DecidableEq, Repr, Inhabited

/-- the version of the document's layout -/
def Report.schemaVersion : String := "1"

def Binding.toJson (b : Binding) : Json :=
  .object [("name", .string b.name), ("scope", .string b.scope.label)]

def ValueAssignment.toJson (v : ValueAssignment) : Json :=
  .object [("name", .string v.name), ("scope", .string v.scope.label), ("raw", .string v.raw)]

def Breakpoint.toJson (b : Breakpoint) : Json :=
  .object [("kind", .string b.kind.name), ("line", .number b.line), ("scope", .string b.scope.label)]

def Candidate.toJson (c : Candidate) : Json :=
  .object [("encoding", .string c.encoding), ("length", .number c.length),
    match c with
    | .bytes data => ("hex", .string (Text.hex data))
    | .text value => ("text", .string value)]

/-- the four lists, each under its name -/
def Findings.fields (f : Findings) : List (String × Json) :=
  [("bindings", .array (f.bindings.map (·.toJson))),
    ("value_assignments", .array (f.valueAssignments.map (·.toJson))),
    ("breakpoints", .array (f.breakpoints.map (·.toJson))),
    ("shellcodes", .array (f.candidates.map (·.toJson)))]

def ScriptReport.toJson (s : ScriptReport) : Json := .object (("path", .string s.path) :: s.findings.fields)

def Report.toJson (r : Report) : Json :=
  .object ([("schema_version", .string Report.schemaVersion), ("scripts", .array (r.scripts.map (·.toJson)))] ++
    if r.registry.isEmpty then [] else [("registry", .array (r.registry.map (·.toJson)))])

end ScriptTriage

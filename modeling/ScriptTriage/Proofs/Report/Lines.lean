import ScriptTriage.Report.Terminal

/-
The lines of a report for people, without colour.

Every part of a report is written on a line of its own: paths, headings, entries. Names and scopes are written as they
are, and so is the beginning of a literal or of a text candidate; hence a line feed in what is shown of these two starts
another line.

- `Consists`: a text is made of lines, each ended by a line feed.
- `consists_terminal`: the lines of a report, part by part, if there are no line feeds in its paths, names and scopes.
- `length_scriptLines`: how many lines a script takes up: one for each part, and one more for each line feed that is
  shown of a literal or of a text candidate.
-/

namespace ScriptTriage

/-! ## Texts and lines -/

def lineFeeds (text : String) : Nat := text.toList.count '\n'

/-- is there no line feed in the text? -/
def Unbroken (text : String) : Prop := '\n' ∉ text.toList

instance (text : String) : Decidable (Unbroken text) := inferInstanceAs (Decidable ('\n' ∉ text.toList))

theorem lineFeeds_append (a b : String) : lineFeeds (a ++ b) = lineFeeds a + lineFeeds b := by
  simp [lineFeeds]

theorem Unbroken.lineFeeds_eq {text : String} (h : Unbroken text) : lineFeeds text = 0 :=
  List.count_eq_zero_of_not_mem h

theorem Unbroken.append {a b : String} (ha : Unbroken a) (hb : Unbroken b) : Unbroken (a ++ b) := by
  simp only [Unbroken, String.toList_append, List.mem_append, not_or]
  exact ⟨ha, hb⟩

/-- the text is made of these lines, each ended by a line feed -/
structure Consists (text : String) (lines : List String) : Prop where
  text_eq : text = String.join (lines.map (· ++ "\n"))
  unbroken : ∀ l ∈ lines, Unbroken l

/-- the lines of a text in which the last line is not ended -/
def splitLines (text : String) : List String := (text.toList.splitOn '\n').map String.ofList

namespace Consists

variable {a b : String} {lines lines' : List String}

theorem nil : Consists "" [] := ⟨rfl, fun _ h => by cases h⟩

theorem append (ha : Consists a lines) (hb : Consists b lines') : Consists (a ++ b) (lines ++ lines') := by
  refine ⟨?_, fun l hl => ?_⟩
  · rw [List.map_append, String.join_append, ← ha.text_eq, ← hb.text_eq]
  · rcases List.mem_append.1 hl with hl | hl
    · exact ha.unbroken l hl
    · exact hb.unbroken l hl

theorem single (h : Unbroken a) : Consists (a ++ "\n") [a] :=
  ⟨by simp [String.join_cons, String.join_nil], by simpa using h⟩

theorem join {α : Type} {text : α → String} {linesOf : α → List String} {parts : List α}
    (h : ∀ p ∈ parts, Consists (text p) (linesOf p)) :
    Consists (String.join (parts.map text)) (parts.flatMap linesOf) := by
  induction parts with
  | nil => exact .nil
  | cons p parts ih =>
    rw [List.map_cons, String.join_cons, List.flatMap_cons]
    exact (h p List.mem_cons_self).append (ih fun q hq => h q (List.mem_cons_of_mem p hq))

theorem length_eq (h : Consists a lines) : lines.length = lineFeeds a := by
  obtain ⟨rfl, hunbroken⟩ := h
  induction lines with
  | nil => rfl
  | cons l lines ih =>
    have hl := (hunbroken l List.mem_cons_self).lineFeeds_eq
    have hrest := ih fun l' hl' => hunbroken l' (List.mem_cons_of_mem l hl')
    have hfeed : lineFeeds "\n" = 1 := by decide
    rw [List.map_cons, String.join_cons, lineFeeds_append, lineFeeds_append, ← hrest, hl, hfeed, List.length_cons]
    omega

end Consists

theorem unbroken_of_mem_splitOn {text line : List Char} (h : line ∈ text.splitOn '\n') : '\n' ∉ line := by
  induction text generalizing line with
  | nil =>
    rw [List.splitOn_nil, List.mem_singleton] at h
    simp [h]
  | cons c cs ih =>
    rw [List.splitOn_cons_eq_if_modifyHead] at h
    split at h
    · rcases List.mem_cons.1 h with rfl | h
      · exact List.not_mem_nil
      · exact ih h
    · rename_i hc
      obtain ⟨first, rest, hparts⟩ := List.exists_cons_of_ne_nil (List.splitOn_ne_nil '\n' cs)
      rw [hparts, List.modifyHead_cons] at h
      rw [hparts] at ih
      rcases List.mem_cons.1 h with rfl | h
      · have hne : c ≠ '\n' := by simpa using hc
        exact List.not_mem_cons_of_ne_of_not_mem hne.symm (ih List.mem_cons_self)
      · exact ih (List.mem_cons_of_mem first h)

theorem flatMap_splitOn (text : List Char) : (text.splitOn '\n').flatMap (· ++ ['\n']) = text ++ ['\n'] := by
  induction text with
  | nil => rfl
  | cons c cs ih =>
    rw [List.splitOn_cons_eq_if_modifyHead]
    split
    · rename_i hc
      rw [List.flatMap_cons, ih, beq_iff_eq.1 hc]
      rfl
    · obtain ⟨first, rest, hparts⟩ := List.exists_cons_of_ne_nil (List.splitOn_ne_nil '\n' cs)
      rw [hparts, List.flatMap_cons] at ih
      rw [hparts, List.modifyHead_cons, List.flatMap_cons, List.cons_append, List.cons_append, ih, List.cons_append]

/-- a text that is ended by a line feed is made of its lines -/
theorem consists_splitLines (text : String) : Consists (text ++ "\n") (splitLines text) := by
  refine ⟨?_, fun line hline => ?_⟩
  · have hfeed : "\n".toList = ['\n'] := rfl
    rw [← String.toList_inj, String.toList_append, String.toList_join, splitLines, List.map_map, List.flatMap_map]
    simp only [Function.comp_apply, String.toList_append, String.toList_ofList, hfeed]
    exact (flatMap_splitOn text.toList).symm
  · obtain ⟨part, hpart, rfl⟩ := List.mem_map.1 hline
    rw [Unbroken, String.toList_ofList]
    exact unbroken_of_mem_splitOn hpart

theorem length_splitLines (text : String) : (splitLines text).length = lineFeeds text + 1 := by
  rw [(consists_splitLines text).length_eq, lineFeeds_append]
  rfl

/-! ## Which characters are written -/

theorem isDigit_of_mem_toString {n : Nat} {c : Char} (h : c ∈ (toString n).toList) : c.isDigit = true := by
  rw [Nat.toString_eq_ofList_toDigits, String.toList_ofList] at h
  exact Nat.isDigit_of_mem_toDigits (by decide) (by decide) h

theorem mem_padRight {text : String} {width : Nat} {c : Char} (h : c ∈ (padRight text width).toList) :
    c ∈ text.toList ∨ c = ' ' := by
  rw [padRight, String.toList_append, String.toList_ofList, List.mem_append] at h
  exact h.imp_right List.eq_of_mem_replicate

theorem hexDigit_mem (n : Nat) : Text.hexDigit n ∈ "0123456789abcdef".toList := by
  unfold Text.hexDigit
  cases hdigit : "0123456789abcdef".toList[n]? with
  | none => decide
  | some digit => exact List.mem_of_getElem? hdigit

theorem mem_hex {bytes : List UInt8} {c : Char} (h : c ∈ (Text.hex bytes).toList) :
    c ∈ "0123456789abcdef".toList := by
  rw [Text.hex, String.toList_ofList] at h
  obtain ⟨b, -, hb⟩ := List.mem_flatMap.1 h
  simp only [Text.hexOfByte, List.mem_cons, List.not_mem_nil, or_false] at hb
  rcases hb with rfl | rfl
  · exact hexDigit_mem _
  · exact hexDigit_mem _

/-! ## What is written without line feeds -/

theorem unbroken_toString (n : Nat) : Unbroken (toString n) := by
  intro h
  exact absurd (isDigit_of_mem_toString h) (by decide)

theorem unbroken_padRight {text : String} (h : Unbroken text) (width : Nat) : Unbroken (padRight text width) := by
  intro hfeed
  rcases mem_padRight hfeed with hfeed | hfeed
  · exact h hfeed
  · exact absurd hfeed (by decide)

theorem unbroken_hex (bytes : List UInt8) : Unbroken (Text.hex bytes) := by
  intro h
  exact absurd (mem_hex h) (by decide)

theorem unbroken_kindName (kind : BreakpointKind) : Unbroken kind.name := by
  cases kind with
  | assignment => decide
  | loop => decide

theorem unbroken_encoding (c : Candidate) : Unbroken c.encoding := by
  cases c with
  | bytes => exact (by decide : Unbroken "latin1")
  | text => exact (by decide : Unbroken "text")

/-- how many line feeds are in what a report shows of a text -/
def feedsShown (text : String) : Nat := (text.toList.take previewLength).count '\n'

theorem lineFeeds_truncate (text : String) : lineFeeds (truncate text previewLength) = feedsShown text := by
  rw [lineFeeds, truncate, String.toList_ofList, feedsShown]
  split
  · rw [List.count_append, show [ellipsis].count '\n' = 0 by decide, Nat.add_zero]
  · rfl

/-- how many line feeds are in what a report shows of a candidate; bytes are shown as digits -/
def Candidate.previewFeeds : Candidate → Nat
  | .bytes _ => 0
  | .text value => feedsShown value

theorem lineFeeds_preview (c : Candidate) : lineFeeds c.preview = c.previewFeeds := by
  cases c with
  | bytes data =>
    refine Unbroken.lineFeeds_eq ?_
    rw [Candidate.preview]
    split
    · rw [Unbroken, String.toList_push, List.mem_append, List.mem_singleton, not_or]
      exact ⟨unbroken_hex _, by decide⟩
    · exact unbroken_hex _
  | text value => exact lineFeeds_truncate value

/-! ## The lines of a report -/

namespace Terminal

/-- a line of the tree, without its end -/
def treeLine (text : String) : String := "│" ++ text

def bindingLine (b : Binding) : String := treeLine ("       " ++ b.name ++ " " ++ scopeMark false b.scope)

/-- the line of a literal assignment, which ends at the first line feed that is shown -/
def valueAssignmentLine (v : ValueAssignment) : String :=
  treeLine ("       " ++ v.name ++ " = " ++ truncate v.raw previewLength ++ " " ++ scopeMark false v.scope)

def breakpointLine (b : Breakpoint) : String :=
  treeLine ("       line " ++ padRight (toString b.line) 5 ++ " " ++ b.kind.name ++ " " ++ scopeMark false b.scope)

/-- the line of a candidate, which ends at the first line feed that is shown -/
def candidateLine (c : Candidate) : String :=
  treeLine ("       " ++ c.preview ++ " " ++ ("[" ++ c.encoding ++ " " ++ toString c.length ++ "]"))

/-- the lines of a list with a heading; an empty list has none -/
def listingLines (title : String) (entries : List (List String)) : List String :=
  if entries.isEmpty then [] else treeLine ("     ≡ " ++ title) :: entries.flatten

def findingsLines (f : Findings) : List String :=
  if f.isEmpty then [treeLine "     nothing found"]
  else
    listingLines "bindings" (f.bindings.map fun b => [bindingLine b]) ++
      listingLines "literal assignments" (f.valueAssignments.map fun v => splitLines (valueAssignmentLine v)) ++
      listingLines "breakpoints" (f.breakpoints.map fun b => [breakpointLine b]) ++
      listingLines "shellcode candidates" (f.candidates.map fun c => splitLines (candidateLine c))

/-- the lines of a script: its path, its findings and a line that closes it -/
def scriptLines (s : ScriptReport) : List String :=
  ["├─ " ++ s.path] ++ findingsLines s.findings ++ [treeLine ""]

/-- the line about all scripts, if there is one -/
def summaryLines (r : Report) : List String :=
  if 1 < r.scripts.length && !r.registry.isEmpty then
    ["Σ" ++ " " ++ toString r.registry.length ++ " distinct shellcode candidate(s) across " ++
      toString r.scripts.length ++ " scripts"]
  else []

/-- how many lines a list takes up, if its entries break into further lines: a heading, and a line for each entry -/
def listingHeight {α : Type} (feeds : α → Nat) (entries : List α) : Nat :=
  if entries.isEmpty then 0 else 1 + entries.foldr (fun e height => 1 + feeds e + height) 0

/-- how many lines a script takes up, if literals and candidates break into further lines -/
def scriptHeight (rawFeeds : ValueAssignment → Nat) (candidateFeeds : Candidate → Nat) (f : Findings) : Nat :=
  if f.isEmpty then 3
  else 1 + listingHeight (fun _ => 0) f.bindings + listingHeight rawFeeds f.valueAssignments +
    listingHeight (fun _ => 0) f.breakpoints + listingHeight candidateFeeds f.candidates + 1

end Terminal

/-- there is no line feed in the names and scopes of the findings -/
structure Findings.NamesUnbroken (f : Findings) : Prop where
  bindings : ∀ b ∈ f.bindings, Unbroken b.name ∧ Unbroken b.scope.label
  valueAssignments : ∀ v ∈ f.valueAssignments, Unbroken v.name ∧ Unbroken v.scope.label
  breakpoints : ∀ b ∈ f.breakpoints, Unbroken b.scope.label

/-- there is no line feed in the paths, names and scopes of the report; literals and candidates may be anything -/
def Report.NamesUnbroken (r : Report) : Prop := ∀ s ∈ r.scripts, Unbroken s.path ∧ s.findings.NamesUnbroken

namespace Terminal

theorem unbroken_scopeMark {scope : Scope} (h : Unbroken scope.label) : Unbroken (scopeMark false scope) :=
  ((by decide : Unbroken "(").append h).append (by decide)

theorem consists_line {text : String} (h : Unbroken text) : Consists (line text) [treeLine text] :=
  .single ((by decide : Unbroken "│").append h)

theorem consists_binding {b : Binding} (hname : Unbroken b.name) (hscope : Unbroken b.scope.label) :
    Consists (binding false b) [bindingLine b] := by
  refine consists_line ?_
  exact (((by decide : Unbroken "       ").append hname).append (by decide)).append (unbroken_scopeMark hscope)

theorem consists_breakpoint {b : Breakpoint} (hscope : Unbroken b.scope.label) :
    Consists (breakpoint false b) [breakpointLine b] := by
  refine consists_line ?_
  have hline : Unbroken ("       line " ++ padRight (toString b.line) 5) :=
    (by decide : Unbroken "       line ").append (unbroken_padRight (unbroken_toString _) 5)
  exact (((hline.append (by decide)).append (unbroken_kindName b.kind)).append (by decide)).append
    (unbroken_scopeMark hscope)

theorem consists_valueAssignment (v : ValueAssignment) :
    Consists (valueAssignment false v) (splitLines (valueAssignmentLine v)) := consists_splitLines _

theorem consists_candidate (c : Candidate) : Consists (candidate false c) (splitLines (candidateLine c)) :=
  consists_splitLines _

theorem consists_listing {α : Type} {title : String} {text : α → String} {linesOf : α → List String} {entries : List α}
    (htitle : Unbroken title) (h : ∀ e ∈ entries, Consists (text e) (linesOf e)) :
    Consists (listing title (entries.map text)) (listingLines title (entries.map linesOf)) := by
  rw [listing, listingLines, List.isEmpty_map, List.isEmpty_map]
  split
  · exact .nil
  · rw [← List.flatMap_def]
    exact (consists_line ((by decide : Unbroken "     ≡ ").append htitle)).append (.join h)

theorem consists_findings {f : Findings} (h : f.NamesUnbroken) : Consists (findings false f) (findingsLines f) := by
  rw [findings, findingsLines]
  split
  · exact consists_line (by decide)
  · refine .append (.append (.append ?_ ?_) ?_) ?_
    · exact consists_listing (by decide) fun b hb => consists_binding (h.bindings b hb).1 (h.bindings b hb).2
    · exact consists_listing (by decide) fun v _ => consists_valueAssignment v
    · exact consists_listing (by decide) fun b hb => consists_breakpoint (h.breakpoints b hb)
    · exact consists_listing (by decide) fun c _ => consists_candidate c

theorem consists_script {s : ScriptReport} (hpath : Unbroken s.path) (h : s.findings.NamesUnbroken) :
    Consists (script false s) (scriptLines s) := by
  refine .append (.append ?_ (consists_findings h)) (consists_line (by decide))
  exact .single ((by decide : Unbroken "├─ ").append hpath)

theorem consists_summary (r : Report) : Consists (summary false r) (summaryLines r) := by
  rw [summary, summaryLines]
  split
  · have hend : " scripts\n" = " scripts" ++ "\n" := rfl
    rw [hend, ← String.append_assoc]
    refine .single ?_
    exact ((((by decide : Unbroken ("Σ" ++ " ")).append (unbroken_toString _)).append (by decide)).append
      (unbroken_toString _)).append (by decide)
  · exact .nil

theorem consists_terminal {r : Report} (h : r.NamesUnbroken) :
    Consists (r.terminal false) (r.scripts.flatMap scriptLines ++ summaryLines r) :=
  .append (.join fun s hs => consists_script (h s hs).1 (h s hs).2) (consists_summary r)

/-! ## How many lines there are -/

theorem length_splitLines_valueAssignment {v : ValueAssignment} (hname : Unbroken v.name)
    (hscope : Unbroken v.scope.label) : (splitLines (valueAssignmentLine v)).length = 1 + feedsShown v.raw := by
  have hbefore : lineFeeds ("       " ++ v.name ++ " = ") = 0 :=
    (((by decide : Unbroken "       ").append hname).append (by decide)).lineFeeds_eq
  rw [length_splitLines, valueAssignmentLine, treeLine, lineFeeds_append, lineFeeds_append, lineFeeds_append,
    lineFeeds_append, hbefore, lineFeeds_truncate, (unbroken_scopeMark hscope).lineFeeds_eq,
    show lineFeeds "│" = 0 by decide, show lineFeeds " " = 0 by decide]
  omega

theorem length_splitLines_candidate (c : Candidate) :
    (splitLines (candidateLine c)).length = 1 + c.previewFeeds := by
  have hafter : lineFeeds ("[" ++ c.encoding ++ " " ++ toString c.length ++ "]") = 0 :=
    (((((by decide : Unbroken "[").append (unbroken_encoding c)).append (by decide)).append
      (unbroken_toString _)).append (by decide)).lineFeeds_eq
  rw [length_splitLines, candidateLine, treeLine, lineFeeds_append, lineFeeds_append, lineFeeds_append,
    lineFeeds_append, hafter, lineFeeds_preview, show lineFeeds "│" = 0 by decide,
    show lineFeeds "       " = 0 by decide, show lineFeeds " " = 0 by decide]
  omega

theorem length_listingLines {α : Type} {linesOf : α → List String} {feeds : α → Nat} {entries : List α} (title : String)
    (h : ∀ e ∈ entries, (linesOf e).length = 1 + feeds e) :
    (listingLines title (entries.map linesOf)).length = listingHeight feeds entries := by
  have hentries : (entries.map linesOf).flatten.length = entries.foldr (fun e height => 1 + feeds e + height) 0 := by
    induction entries with
    | nil => rfl
    | cons e entries ih =>
      rw [List.map_cons, List.flatten_cons, List.length_append, List.foldr_cons, h e List.mem_cons_self,
        ih fun e' he' => h e' (List.mem_cons_of_mem e he')]
  rw [listingLines, listingHeight, List.isEmpty_map]
  split
  · rfl
  · rw [List.length_cons, hentries, Nat.add_comm]

theorem length_scriptLines {s : ScriptReport} (h : s.findings.NamesUnbroken) :
    (scriptLines s).length = scriptHeight (fun v => feedsShown v.raw) Candidate.previewFeeds s.findings := by
  rw [scriptLines, scriptHeight, findingsLines]
  split
  · rfl
  · have hbindings : (listingLines "bindings" (s.findings.bindings.map fun b => [bindingLine b])).length =
        listingHeight (fun _ => 0) s.findings.bindings := length_listingLines _ fun _ _ => rfl
    have hbreakpoints : (listingLines "breakpoints" (s.findings.breakpoints.map fun b => [breakpointLine b])).length =
        listingHeight (fun _ => 0) s.findings.breakpoints := length_listingLines _ fun _ _ => rfl
    have hvalues := length_listingLines "literal assignments" fun v hv =>
      length_splitLines_valueAssignment (h.valueAssignments v hv).1 (h.valueAssignments v hv).2
    have hcandidates := length_listingLines "shellcode candidates" fun c (_ : c ∈ s.findings.candidates) =>
      length_splitLines_candidate c
    simp only [List.length_append, List.length_singleton, hbindings, hvalues, hbreakpoints, hcandidates]
    omega

end Terminal

/-- **The lines of a report.** If there is no line feed in the paths, names and scopes of a report, then it consists,
script by script, of the line of the path, the lines of the findings and a closing line, with one line about all scripts
at the end if there are several and the registry is not empty. A script without findings takes up three lines; any other
one has a heading for each list that is not empty, and for each entry one line and as many more as there are line feeds
in what is shown of its literal or text. -/
theorem Report.terminal_lines (r : Report) (h : r.NamesUnbroken) :
    Consists (r.terminal false) (r.scripts.flatMap Terminal.scriptLines ++ Terminal.summaryLines r) ∧
    (∀ s ∈ r.scripts, (Terminal.scriptLines s).length =
      Terminal.scriptHeight (fun v => feedsShown v.raw) Candidate.previewFeeds s.findings) ∧
    (Terminal.summaryLines r).length = if 1 < r.scripts.length && !r.registry.isEmpty then 1 else 0 := by
  refine ⟨Terminal.consists_terminal h, fun s hs => Terminal.length_scriptLines (h s hs).2, ?_⟩
  rw [Terminal.summaryLines]
  split
  · rfl
  · rfl

/-- a script with a literal that goes on behind a line end, and with a candidate that reads like the path of a script -/
def forgedReport : Report :=
  { scripts := [⟨"a.js", { valueAssignments := [⟨"s", .global, "'\\\n'"⟩], candidates := [.text "一\n├─ b.js\n"] }⟩]
    registry := [] }

theorem namesUnbroken_forgedReport : forgedReport.NamesUnbroken := by
  intro s hs
  rw [List.mem_singleton.1 hs]
  refine ⟨by decide, fun b hb => ?_, fun v hv => ?_, fun b hb => ?_⟩
  · cases hb
  · rw [List.mem_singleton.1 hv]
    exact ⟨by decide, by decide⟩
  · cases hb

/-- the report has two entries and takes up nine lines; with one line for each entry there would be six -/
theorem more_lines_than_entries :
    forgedReport.NamesUnbroken ∧
    (∀ lines, Consists (forgedReport.terminal false) lines → lines.length = 9) ∧
    (forgedReport.scripts.map fun s => Terminal.scriptHeight (fun _ => 0) (fun _ => 0) s.findings) = [6] ∧
    Terminal.summaryLines forgedReport = [] := by
  refine ⟨namesUnbroken_forgedReport, fun lines hlines => ?_, by decide, by decide⟩
  rw [hlines.length_eq, ← (Terminal.consists_terminal namesUnbroken_forgedReport).length_eq]
  decide +kernel

/-- one of the lines reads like the path of another script -/
theorem terminal_lines_forgedReport :
    forgedReport.NamesUnbroken ∧
    Consists (forgedReport.terminal false)
      ["├─ a.js", "│     ≡ literal assignments", "│       s = '\\", "' (global)", "│     ≡ shellcode candidates",
        "│       一", "├─ b.js", " [text 10]", "│"] := by
  have hlines : forgedReport.scripts.flatMap Terminal.scriptLines ++ Terminal.summaryLines forgedReport =
      ["├─ a.js", "│     ≡ literal assignments", "│       s = '\\", "' (global)", "│     ≡ shellcode candidates",
        "│       一", "├─ b.js", " [text 10]", "│"] := by decide +kernel
  exact ⟨namesUnbroken_forgedReport, hlines ▸ (Report.terminal_lines forgedReport namesUnbroken_forgedReport).1⟩

end ScriptTriage

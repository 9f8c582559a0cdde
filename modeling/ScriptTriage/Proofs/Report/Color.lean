import ScriptTriage.Proofs.Report.Lines

/-
Colour in the report for people.

A style is switched on and off by control sequences: an escape character, a bracket, parameters and the letter `m`. A
scanner takes them out of a text again. It knows nothing of styles, and gives back what only began like a sequence.

- `Strips`: the scanner takes a decorated text to a plain one and is outside all sequences behind it, whatever follows.
  So the parts of a report can be looked at one by one: texts without the escape character (`Strips.plain`), texts in a
  style (`Strips.paint`), and what is put together from them (`Strips.append`, `Strips.join`).
- `strip_terminal`: without its control sequences, the report with colour is the report without colour.
-/

namespace ScriptTriage

/-- the character that starts a control sequence -/
def escape : Char := '\x1b'

/-- is there no escape character in the text? -/
def Unescaped (text : String) : Prop := escape ∉ text.toList

instance (text : String) : Decidable (Unescaped text) := inferInstanceAs (Decidable (escape ∉ text.toList))

theorem Unescaped.append {a b : String} (ha : Unescaped a) (hb : Unescaped b) : Unescaped (a ++ b) := by
  simp only [Unescaped, String.toList_append, List.mem_append, not_or]
  exact ⟨ha, hb⟩

namespace Terminal

/-! ## Taking control sequences out -/

/-- how much of a control sequence the scanner has read -/
inductive Scan where
  /-- nothing: it is outside all sequences -/
  | outside
  /-- the escape character -/
  | started
  /-- the escape character, a bracket, and these parameters, the last one first -/
  | opened (parameters : List Char)
deriving DecidableEq, Repr

/-- what has been held back; it is given back if it turns out to begin no sequence -/
def Scan.held : Scan → List Char
  | .outside => []
  | .started => [escape]
  | .opened parameters => escape :: '[' :: parameters.reverse

/-- outside a sequence every character is given back, unless it starts one -/
def Scan.restart (c : Char) : Scan × List Char := if c = escape then (.started, []) else (.outside, [c])

/-- read one character: what is read of a sequence now, and the characters that are given back -/
def Scan.next (isParameter : Char → Bool) : Scan → Char → Scan × List Char
  | .outside, c => restart c
  | .started, c => if c = '[' then (.opened [], []) else ((restart c).1, Scan.started.held ++ (restart c).2)
  | .opened parameters, c =>
    if c = 'm' then (.outside, [])
    else if isParameter c then (.opened (c :: parameters), [])
    else ((restart c).1, (Scan.opened parameters).held ++ (restart c).2)

/-- read a text; at its end, what is held back is given back -/
def Scan.run (isParameter : Char → Bool) : Scan → List Char → List Char
  | s, [] => s.held
  | s, c :: cs => (s.next isParameter c).2 ++ run isParameter (s.next isParameter c).1 cs

/-- the text without its control sequences -/
def strip (isParameter : Char → Bool) (text : String) : String :=
  String.ofList (Scan.run isParameter .outside text.toList)

-- one that is cut short is not taken out, and a second one may start inside it
example : strip Char.isDigit "a\x1b[97mb\x1b[0mc\x1b[9\x1b[9md\x1b[9" = "abc\x1b[9d\x1b[9" := by decide

/-! ## Decorated texts -/

/-- the scanner takes the decorated text to the plain one, and is outside all sequences behind it -/
def Strips (isParameter : Char → Bool) (decorated plain : String) : Prop :=
  ∀ rest, Scan.run isParameter .outside (decorated.toList ++ rest) = plain.toList ++ Scan.run isParameter .outside rest

section Strips

variable {isParameter : Char → Bool}

theorem run_unescaped {cs : List Char} (h : escape ∉ cs) (rest : List Char) :
    Scan.run isParameter .outside (cs ++ rest) = cs ++ Scan.run isParameter .outside rest := by
  induction cs with
  | nil => rfl
  | cons c cs ih =>
    have hc : c ≠ escape := fun heq => h (heq ▸ List.mem_cons_self)
    have hcs : escape ∉ cs := fun hmem => h (List.mem_cons_of_mem c hmem)
    simp only [List.cons_append, Scan.run, Scan.next, Scan.restart, if_neg hc, List.nil_append, ih hcs]

theorem run_parameters {code : List Char} (hm : 'm' ∉ code) (hcode : ∀ c ∈ code, isParameter c = true)
    (read rest : List Char) :
    Scan.run isParameter (.opened read) (code ++ 'm' :: rest) = Scan.run isParameter .outside rest := by
  induction code generalizing read with
  | nil => simp [Scan.run, Scan.next]
  | cons c code ih =>
    have hc : c ≠ 'm' := fun heq => hm (heq ▸ List.mem_cons_self)
    have hparameter := hcode c List.mem_cons_self
    have hrest := ih (fun hmem => hm (List.mem_cons_of_mem c hmem)) (fun d hd => hcode d (List.mem_cons_of_mem c hd))
    simp only [List.cons_append, Scan.run, Scan.next, if_neg hc, if_pos hparameter, List.nil_append, hrest]

theorem run_sequence {code : List Char} (hm : 'm' ∉ code) (hcode : ∀ c ∈ code, isParameter c = true)
    (rest : List Char) :
    Scan.run isParameter .outside (escape :: '[' :: (code ++ 'm' :: rest)) = Scan.run isParameter .outside rest := by
  have hopen := run_parameters hm hcode [] rest
  simp only [Scan.run, Scan.next, Scan.restart, if_true, List.nil_append]
  exact hopen

namespace Strips

variable {a a' b b' : String}

theorem strip_eq (h : Strips isParameter a b) : strip isParameter a = b := by
  have hall := h []
  rw [List.append_nil, Scan.run, Scan.held, List.append_nil] at hall
  rw [strip, hall, String.ofList_toList]

theorem plain (h : Unescaped a) : Strips isParameter a a := fun rest => run_unescaped h rest

theorem append (ha : Strips isParameter a a') (hb : Strips isParameter b b') :
    Strips isParameter (a ++ b) (a' ++ b') := by
  intro rest
  simp only [String.toList_append, List.append_assoc]
  rw [ha, hb]

theorem join {α : Type} {decorated undecorated : α → String} {parts : List α}
    (h : ∀ p ∈ parts, Strips isParameter (decorated p) (undecorated p)) :
    Strips isParameter (String.join (parts.map decorated)) (String.join (parts.map undecorated)) := by
  induction parts with
  | nil => exact plain List.not_mem_nil
  | cons p parts ih =>
    simp only [List.map_cons, String.join_cons]
    exact (h p List.mem_cons_self).append (ih fun q hq => h q (List.mem_cons_of_mem p hq))

end Strips

/-! ## Styles -/

/-- the characters of which the codes of styles are made -/
def codeCharacters : List Char := "0123456789;".toList

theorem code_characters (style : Style) : style.code.toList.all codeCharacters.contains = true := by
  cases style with
  | brightWhite => decide
  | dim => decide
  | brightCyan => decide
  | brightYellow => decide
  | brightRed => decide
  | boldBrightRed => decide

variable (hparameter : ∀ c ∈ codeCharacters, isParameter c = true)

include hparameter

/-- a code is read as parameters up to the `m` behind it -/
theorem run_code {code : List Char} (hcode : code.all codeCharacters.contains = true) (rest : List Char) :
    Scan.run isParameter .outside (escape :: '[' :: (code ++ 'm' :: rest)) = Scan.run isParameter .outside rest := by
  have hmem : ∀ c ∈ code, c ∈ codeCharacters := by simpa using hcode
  refine run_sequence (fun hm => ?_) (fun c hc => hparameter c (hmem c hc)) rest
  exact absurd (hmem 'm' hm) (by decide)

theorem Strips.paint (style : Style) {text : String} (h : Unescaped text) :
    Strips isParameter (style.paint true text) (style.paint false text) := by
  intro rest
  have hon : "\x1b[".toList = [escape, '['] := rfl
  have hoff : "\x1b[0m".toList = escape :: '[' :: (['0'] ++ ['m']) := rfl
  have hm : "m".toList = ['m'] := rfl
  calc Scan.run isParameter .outside ((style.paint true text).toList ++ rest)
      = Scan.run isParameter .outside
          (escape :: '[' :: (style.code.toList ++ 'm' :: (text.toList ++ escape :: '[' :: (['0'] ++ 'm' :: rest)))) := by
        simp [Style.paint, hon, hoff, hm]
    _ = Scan.run isParameter .outside (text.toList ++ escape :: '[' :: (['0'] ++ 'm' :: rest)) :=
        run_code hparameter (code_characters style) _
    _ = text.toList ++ Scan.run isParameter .outside (escape :: '[' :: (['0'] ++ 'm' :: rest)) := run_unescaped h _
    _ = text.toList ++ Scan.run isParameter .outside rest := by rw [run_code hparameter (by decide)]
    _ = (style.paint false text).toList ++ Scan.run isParameter .outside rest := rfl

end Strips

/-! ## What is written without escape characters -/

theorem unescaped_toString (n : Nat) : Unescaped (toString n) := by
  intro h
  exact absurd (isDigit_of_mem_toString h) (by decide)

theorem unescaped_padRight {text : String} (h : Unescaped text) (width : Nat) : Unescaped (padRight text width) := by
  intro hmem
  rcases mem_padRight hmem with hmem | hmem
  · exact h hmem
  · exact absurd hmem (by decide)

theorem unescaped_kindName (kind : BreakpointKind) : Unescaped kind.name := by
  cases kind with
  | assignment => decide
  | loop => decide

theorem unescaped_encoding (c : Candidate) : Unescaped c.encoding := by
  cases c with
  | bytes => exact (by decide : Unescaped "latin1")
  | text => exact (by decide : Unescaped "text")

theorem unescaped_truncate {text : String} (h : Unescaped text) (n : Nat) : Unescaped (truncate text n) := by
  have hshown : escape ∉ text.toList.take n := fun hmem => h (List.mem_of_mem_take hmem)
  rw [Unescaped, truncate, String.toList_ofList]
  split
  · rw [List.mem_append, not_or]
    exact ⟨hshown, by decide⟩
  · exact hshown

theorem unescaped_hex (bytes : List UInt8) : Unescaped (Text.hex bytes) := by
  intro h
  exact absurd (mem_hex h) (by decide)

theorem unescaped_preview {c : Candidate} (h : ∀ value, c = .text value → Unescaped value) : Unescaped c.preview := by
  cases c with
  | bytes data =>
    rw [Candidate.preview]
    split
    · rw [Unescaped, String.toList_push, List.mem_append, List.mem_singleton, not_or]
      exact ⟨unescaped_hex _, by decide⟩
    · exact unescaped_hex _
  | text value => exact unescaped_truncate (h value rfl) _

end Terminal

/-- there is no escape character in any text of the findings; bytes are shown as digits -/
structure Findings.TextsUnescaped (f : Findings) : Prop where
  bindings : ∀ b ∈ f.bindings, Unescaped b.name ∧ Unescaped b.scope.label
  valueAssignments : ∀ v ∈ f.valueAssignments, Unescaped v.name ∧ Unescaped v.scope.label ∧ Unescaped v.raw
  breakpoints : ∀ b ∈ f.breakpoints, Unescaped b.scope.label
  candidates : ∀ value, .text value ∈ f.candidates → Unescaped value

/-- there is no escape character in any text of the scripts; of the registry only the size is shown -/
def Report.TextsUnescaped (r : Report) : Prop := ∀ s ∈ r.scripts, Unescaped s.path ∧ s.findings.TextsUnescaped

/-! ## The parts of a report -/

namespace Terminal

section Parts

variable {isParameter : Char → Bool} (hparameter : ∀ c ∈ codeCharacters, isParameter c = true)

theorem strips_line {a b : String} (h : Strips isParameter a b) : Strips isParameter (line a) (line b) :=
  ((Strips.plain (by decide)).append h).append (.plain (by decide))

theorem strips_listing {α : Type} {title : String} {decorated plain : α → String} {entries : List α}
    (htitle : Unescaped title) (h : ∀ e ∈ entries, Strips isParameter (decorated e) (plain e)) :
    Strips isParameter (listing title (entries.map decorated)) (listing title (entries.map plain)) := by
  rw [listing, listing, List.isEmpty_map, List.isEmpty_map]
  split
  · exact .plain (by decide)
  · exact (strips_line (.plain ((by decide : Unescaped "     ≡ ").append htitle))).append (.join h)

include hparameter

theorem strips_scopeMark {scope : Scope} (h : Unescaped scope.label) :
    Strips isParameter (scopeMark true scope) (scopeMark false scope) :=
  .paint hparameter .dim (((by decide : Unescaped "(").append h).append (by decide))

theorem strips_binding {b : Binding} (hname : Unescaped b.name) (hscope : Unescaped b.scope.label) :
    Strips isParameter (binding true b) (binding false b) := by
  have hbefore : Unescaped ("       " ++ b.name ++ " ") :=
    ((by decide : Unescaped "       ").append hname).append (by decide)
  exact strips_line ((Strips.plain hbefore).append (strips_scopeMark hparameter hscope))

theorem strips_valueAssignment {v : ValueAssignment} (hname : Unescaped v.name) (hscope : Unescaped v.scope.label)
    (hraw : Unescaped v.raw) : Strips isParameter (valueAssignment true v) (valueAssignment false v) := by
  have hleft : Unescaped ("       " ++ v.name ++ " = ") :=
    ((by decide : Unescaped "       ").append hname).append (by decide)
  have hbefore : Unescaped ("       " ++ v.name ++ " = " ++ truncate v.raw previewLength ++ " ") :=
    (hleft.append (unescaped_truncate hraw _)).append (by decide)
  exact strips_line ((Strips.plain hbefore).append (strips_scopeMark hparameter hscope))

theorem strips_breakpoint {b : Breakpoint} (hscope : Unescaped b.scope.label) :
    Strips isParameter (breakpoint true b) (breakpoint false b) := by
  have hbefore : Unescaped ("       line " ++ padRight (toString b.line) 5 ++ " ") :=
    ((by decide : Unescaped "       line ").append (unescaped_padRight (unescaped_toString _) 5)).append (by decide)
  have hkind := Strips.paint hparameter b.kind.style (unescaped_kindName b.kind)
  exact strips_line ((((Strips.plain hbefore).append hkind).append (.plain (by decide))).append
    (strips_scopeMark hparameter hscope))

theorem strips_candidate {c : Candidate} (h : ∀ value, c = .text value → Unescaped value) :
    Strips isParameter (candidate true c) (candidate false c) := by
  have hpreview := Strips.paint hparameter .brightRed (unescaped_preview h)
  have hsize : Unescaped ("[" ++ c.encoding ++ " " ++ toString c.length ++ "]") :=
    ((((by decide : Unescaped "[").append (unescaped_encoding c)).append (by decide)).append
      (unescaped_toString _)).append (by decide)
  exact strips_line ((((Strips.plain (by decide)).append hpreview).append (.plain (by decide))).append
    (.paint hparameter .dim hsize))

theorem strips_findings {f : Findings} (h : f.TextsUnescaped) :
    Strips isParameter (findings true f) (findings false f) := by
  rw [findings, findings]
  split
  · exact strips_line ((Strips.plain (by decide)).append (.paint hparameter .dim (by decide)))
  · refine .append (.append (.append ?_ ?_) ?_) ?_
    · apply strips_listing (by decide)
      intro b hb
      obtain ⟨hname, hscope⟩ := h.bindings b hb
      exact strips_binding hparameter hname hscope
    · apply strips_listing (by decide)
      intro v hv
      obtain ⟨hname, hscope, hraw⟩ := h.valueAssignments v hv
      exact strips_valueAssignment hparameter hname hscope hraw
    · apply strips_listing (by decide)
      intro b hb
      exact strips_breakpoint hparameter (h.breakpoints b hb)
    · apply strips_listing (by decide)
      intro c hc
      exact strips_candidate hparameter fun value hvalue => h.candidates value (hvalue ▸ hc)

theorem strips_script {s : ScriptReport} (hpath : Unescaped s.path) (h : s.findings.TextsUnescaped) :
    Strips isParameter (script true s) (script false s) := by
  have hhead := (((Strips.plain (by decide : Unescaped "├─ ")).append (.paint hparameter .brightWhite hpath)).append
    (.plain (by decide : Unescaped "\n")))
  exact (hhead.append (strips_findings hparameter h)).append (strips_line (.plain (by decide)))

theorem strips_summary (r : Report) : Strips isParameter (summary true r) (summary false r) := by
  rw [summary, summary]
  split
  · have hsum := Strips.paint hparameter .brightWhite (by decide : Unescaped "Σ")
    have hcount := Strips.paint hparameter .boldBrightRed (unescaped_toString r.registry.length)
    exact (((((hsum.append (.plain (by decide))).append hcount).append (.plain (by decide))).append
      (.plain (unescaped_toString _))).append (.plain (by decide)))
  · exact .plain (by decide)

theorem strips_terminal {r : Report} (h : r.TextsUnescaped) : Strips isParameter (r.terminal true) (r.terminal false) := by
  refine .append (.join fun s hs => ?_) (strips_summary hparameter r)
  obtain ⟨hpath, hfindings⟩ := h s hs
  exact strips_script hparameter hpath hfindings

end Parts

end Terminal

/-- **Colour only decorates.** If there is no escape character in the texts of a report, then the report with colour,
without its control sequences, is the report without colour, character by character. This holds whatever else than
digits and semicolons may stand in a control sequence, up to any text before the `m`. -/
theorem Report.strip_terminal (r : Report) (h : r.TextsUnescaped) (isParameter : Char → Bool)
    (hparameter : ∀ c ∈ Terminal.codeCharacters, isParameter c = true) :
    Terminal.strip isParameter (r.terminal true) = r.terminal false :=
  (Terminal.strips_terminal hparameter h).strip_eq

/-- a report whose texts read like pieces of control sequences, or are empty -/
def deceptiveReport : Report :=
  { scripts :=
      [⟨"[0m", { bindings := [⟨"", ⟨"m"⟩⟩], valueAssignments := [⟨"[97m", ⟨""⟩, "1;91m"⟩],
                 breakpoints := [⟨.loop, 3, ⟨"[2"⟩⟩], candidates := [.text "m一[0m", .bytes []] }⟩,
        ⟨"", {}⟩]
    registry := [.bytes []] }

theorem textsUnescaped_deceptiveReport : deceptiveReport.TextsUnescaped := by
  intro s hs
  simp only [deceptiveReport, List.mem_cons, List.not_mem_nil, or_false] at hs
  rcases hs with rfl | rfl
  · refine ⟨by decide, ?_, ?_, ?_, ?_⟩
    · simpa using ⟨by decide, by decide⟩
    · simpa using ⟨by decide, by decide, by decide⟩
    · simpa using by decide
    · simpa using by decide
  · exact ⟨by decide, by simp, by simp, by simp, by simp⟩

/-- every control sequence goes and every such text stays -/
theorem strip_terminal_deceptiveReport :
    deceptiveReport.TextsUnescaped ∧ deceptiveReport.terminal true ≠ deceptiveReport.terminal false ∧
    Terminal.strip Terminal.codeCharacters.contains (deceptiveReport.terminal true) =
      "├─ [0m\n│     ≡ bindings\n│        (m)\n│     ≡ literal assignments\n│       [97m = 1;91m ()\n" ++
      "│     ≡ breakpoints\n│       line 3     loop ([2)\n│     ≡ shellcode candidates\n" ++
      "│       m一[0m [text 5]\n│        [latin1 0]\n│\n├─ \n│     nothing found\n│\n" ++
      "Σ 1 distinct shellcode candidate(s) across 2 scripts\n" := by
  have hplain := Report.strip_terminal deceptiveReport textsUnescaped_deceptiveReport Terminal.codeCharacters.contains
    (by simp)
  refine ⟨textsUnescaped_deceptiveReport, by decide +kernel, hplain.trans ?_⟩
  decide +kernel

end ScriptTriage

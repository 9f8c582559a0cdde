import ScriptTriage.Proofs.Number.Numeral
import ScriptTriage.Proofs.Text.Hex
import ScriptTriage.Report.Json

/-
Reading documents back from their indented form.

The reader takes one character at a time. It keeps the lists and objects that are open and what was read of them, the
innermost first, and the mode tells what the next character belongs to. Blanks, commas and colons only separate: the
brackets and the keys say where a value goes.

- `read_escapeChar`, `read_quote`: an escaped character, and so a whole string, is read back.
- `read_toDigits`: so is a number, which ends at the first character that is no digit.
- `read_render`: reading the indented form of a document, whatever was read before and whatever follows, puts the
  document where it belongs and goes on behind it.
- `read?_pretty`: so the indented form of a document is read back as the document.
-/

namespace ScriptTriage.Json

open ScriptTriage.Number

/-! ## The reader -/

/-- a list or an object that is not closed yet -/
inductive Frame where
  | array (items : List Json)
  /-- `key` is the key whose value is due -/
  | object (fields : List (String × Json)) (key : Option String)

/-- what the next character belongs to -/
inductive Mode where
  | between
  | number (value : Nat)
  | text (read : List Char)
  /-- behind a backslash -/
  | escape (read : List Char)
  /-- behind `\u`, with `left` more digits to come -/
  | code (read : List Char) (left value : Nat)

/-- a reader at work: the innermost open frame, the frames around it, and the mode -/
structure Reader where
  top : Frame
  outer : List Frame
  mode : Mode

/-- put a value into a frame; in an object, a string may be the next key -/
def Frame.put (value : Json) : Frame → Option Frame
  | .array items => some (.array (items ++ [value]))
  | .object fields (some key) => some (.object (fields ++ [(key, value)]) none)
  | .object fields none =>
    match value with
    | .string key => some (.object fields (some key))
    | _ => none

/-- the value that a frame becomes at its closing bracket -/
def Frame.closed? (bracket : Char) : Frame → Option Json
  | .array items => if bracket = ']' then some (.array items) else none
  | .object fields none => if bracket = '\x7d' then some (.object fields) else none
  | .object _ (some _) => none

/-- what stands for a character behind a backslash -/
def escapedChars : List (Char × Char) :=
  [('\x22', '\x22'), ('\\', '\\'), ('b', '\x08'), ('f', '\x0c'), ('n', '\n'), ('r', '\r'), ('t', '\t')]

/-- blanks, and the marks that only separate -/
def separators : List Char := [' ', '\n', ',', ':']

namespace Reader

def put (r : Reader) (value : Json) : Option Reader :=
  (r.top.put value).map fun top => { r with top, mode := .between }

/-- close the innermost frame and put it where it belongs -/
def close (r : Reader) (bracket : Char) : Option Reader :=
  match r.outer with
  | [] => none
  | frame :: outer => (r.top.closed? bracket).bind (put ⟨frame, outer, .between⟩)

/-- a character between values -/
def begin (r : Reader) (c : Char) : Option Reader :=
  if c = '\x22' then some { r with mode := .text [] }
  else if c = '[' then some ⟨.array [], r.top :: r.outer, .between⟩
  else if c = '\x7b' then some ⟨.object [] none, r.top :: r.outer, .between⟩
  else if c = ']' || c = '\x7d' then r.close c
  else if separators.contains c then some { r with mode := .between }
  else (digitOf 10 c).map fun d => { r with mode := .number d }

def step (r : Reader) (c : Char) : Option Reader :=
  match r.mode with
  | .between => r.begin c
  | .number n =>
    match digitOf 10 c with
    | some d => some { r with mode := .number (n * 10 + d) }
    | none => (r.put (.number n)).bind fun r => r.begin c
  | .text cs =>
    if c = '\x22' then r.put (.string (String.ofList cs))
    else if c = '\\' then some { r with mode := .escape cs }
    else some { r with mode := .text (cs ++ [c]) }
  | .escape cs =>
    if c = 'u' then some { r with mode := .code cs 4 0 }
    else (escapedChars.lookup c).map fun e => { r with mode := .text (cs ++ [e]) }
  | .code cs left value =>
    (digitOf 16 c).map fun d =>
      if left ≤ 1 then { r with mode := .text (cs ++ [Char.ofNat (value * 16 + d)]) }
      else { r with mode := .code cs (left - 1) (value * 16 + d) }

/-- the one value that was read, if nothing is open -/
def result? (r : Reader) : Option Json :=
  match r.top, r.outer with
  | .array [value], [] => some value
  | _, _ => none

/-- the value at the end of the text -/
def finish (r : Reader) : Option Json :=
  match r.mode with
  | .between => r.result?
  | .number n => (r.put (.number n)).bind result?
  | _ => none

/-- take characters to the end of the text -/
def read (r : Reader) : List Char → Option Json
  | [] => r.finish
  | c :: cs => (r.step c).bind fun r => r.read cs

end Reader

def read? (s : String) : Option Json := Reader.read ⟨.array [], [], .between⟩ s.toList

/-! ## Strings, numbers and blanks -/

variable {top : Frame} {outer : List Frame}

namespace Reader

theorem read_separators {seps : List Char} (h : ∀ c ∈ seps, c ∈ separators) (rest : List Char) :
    read ⟨top, outer, .between⟩ (seps ++ rest) = read ⟨top, outer, .between⟩ rest := by
  induction seps with
  | nil => rfl
  | cons c seps ih =>
    have hstep : step ⟨top, outer, .between⟩ c = some ⟨top, outer, .between⟩ := by
      have hc := h c List.mem_cons_self
      simp only [separators, List.mem_cons, List.not_mem_nil, or_false] at hc
      rcases hc with rfl | rfl | rfl | rfl <;> rfl
    rw [List.cons_append, read, hstep]
    exact ih fun c' hc' => h c' (List.mem_cons_of_mem c hc')

theorem mem_separators_of_mem_margin {depth : Nat} {c : Char} (h : c ∈ (margin depth).toList) : c ∈ separators := by
  rw [margin, String.toList_ofList] at h
  rw [List.eq_of_mem_replicate h]
  decide

/-- an escaped character is read back, whatever was read before it -/
theorem read_escapeChar (cs : List Char) (c : Char) (rest : List Char) :
    read ⟨top, outer, .text cs⟩ (escapeChar c ++ rest) = read ⟨top, outer, .text (cs ++ [c])⟩ rest := by
  by_cases hquote : c = '\x22'
  · subst hquote; rfl
  by_cases hbackslash : c = '\\'
  · subst hbackslash; rfl
  by_cases hbackspace : c = '\x08'
  · subst hbackspace; rfl
  by_cases hpage : c = '\x0c'
  · subst hpage; rfl
  by_cases hline : c = '\n'
  · subst hline; rfl
  by_cases hreturn : c = '\r'
  · subst hreturn; rfl
  by_cases htab : c = '\t'
  · subst htab; rfl
  rw [escapeChar, if_neg hquote, if_neg hbackslash, if_neg hbackspace, if_neg hpage, if_neg hline, if_neg hreturn,
    if_neg htab]
  by_cases hcontrol : c.toNat < 0x20
  · have hbyte : (UInt8.ofNat c.toNat).toNat = c.toNat := by
      rw [UInt8.toNat_ofNat']
      exact Nat.mod_eq_of_lt (by omega)
    have hhigh := Text.digitOf_hexDigit (n := c.toNat / 16) (by omega)
    have hlow := Text.digitOf_hexDigit (n := c.toNat % 16) (by omega)
    have hzero : digitOf 16 '0' = some 0 := by decide
    have hvalue : c.toNat / 16 * 16 + c.toNat % 16 = c.toNat := by omega
    rw [if_pos hcontrol]
    simp [read, step, Text.hexOfByte, hbyte, hhigh, hlow, hzero, hvalue]
  · rw [if_neg hcontrol]
    simp [read, step, hquote, hbackslash]

theorem read_escaped (cs s : List Char) (rest : List Char) :
    read ⟨top, outer, .text cs⟩ (s.flatMap escapeChar ++ rest) = read ⟨top, outer, .text (cs ++ s)⟩ rest := by
  induction s generalizing cs with
  | nil => simp
  | cons c s ih => rw [List.flatMap_cons, List.append_assoc, read_escapeChar, ih, List.append_assoc, List.singleton_append]

theorem read_quote (s : String) (rest : List Char) :
    read ⟨top, outer, .between⟩ ((quote s).toList ++ rest) =
      (put ⟨top, outer, .between⟩ (.string s)).bind fun r => r.read rest := by
  have htext : read ⟨top, outer, .between⟩ ((quote s).toList ++ rest) =
      read ⟨top, outer, .text []⟩ (s.toList.flatMap escapeChar ++ '\x22' :: rest) := by
    rw [quote, String.toList_ofList, List.cons_append, List.cons_append, List.append_assoc]
    rfl
  have hend : step ⟨top, outer, .text s.toList⟩ '\x22' = put ⟨top, outer, .between⟩ (.string s) := by
    simp [step, put]
  rw [htext, read_escaped, List.nil_append, read, hend]

/-- nothing that would continue a number -/
def EndsNumber (rest : List Char) : Prop := rest.head?.bind (digitOf 10) = none

theorem read_number {n : Nat} {rest : List Char} (h : EndsNumber rest) :
    read ⟨top, outer, .number n⟩ rest = (put ⟨top, outer, .between⟩ (.number n)).bind fun r => r.read rest := by
  cases rest with
  | nil =>
    simp only [read, finish, put]
    cases top.put (.number n) <;> rfl
  | cons c rest =>
    have hc : digitOf 10 c = none := h
    simp only [read, step, put, hc]
    cases top.put (.number n) <;> rfl

theorem begin_digit {c : Char} {d : Nat} (h : digitOf 10 c = some d) :
    begin ⟨top, outer, .between⟩ c = some ⟨top, outer, .number d⟩ := by
  have hne : ∀ x, digitOf 10 x = none → c ≠ x := by
    rintro x hx rfl
    rw [hx] at h
    cases h
  have hsep : c ∉ separators := by
    intro hc
    simp only [separators, List.mem_cons, List.not_mem_nil, or_false] at hc
    rcases hc with rfl | rfl | rfl | rfl <;> exact hne _ (by decide) rfl
  have hquote := hne '\x22' (by decide)
  have hbracket := hne '[' (by decide)
  have hbrace := hne '\x7b' (by decide)
  have hbracket' := hne ']' (by decide)
  have hbrace' := hne '\x7d' (by decide)
  simp [begin, hquote, hbracket, hbrace, hbracket', hbrace', hsep, h]

theorem read_numeral {ds : List Char} {n : Nat} (h : Numeral 10 ds n) (hne : ds ≠ []) (rest : List Char) :
    read ⟨top, outer, .between⟩ (ds ++ rest) = read ⟨top, outer, .number n⟩ rest := by
  induction h generalizing rest with
  | nil => exact absurd rfl hne
  | @snoc ds n c d hds hd hc ih =>
    have hdigit := digitOf_of_writes (by decide) hd hc
    rw [List.append_assoc, List.singleton_append]
    by_cases hfirst : ds = []
    · subst hfirst
      have hn : 0 = n := Option.some.inj (digitsValue_of_numeral (by decide) hds)
      rw [← hn, Nat.zero_mul, Nat.zero_add, List.nil_append, read, step, begin_digit hdigit]
      rfl
    · rw [ih hfirst, read]
      simp [step, hdigit]

theorem numeral_toDigits (n : Nat) : Numeral 10 (Nat.toDigits 10 n) n := by
  induction n using Nat.strongRecOn with
  | ind n ih =>
    by_cases hn : n < 10
    · rw [Nat.toDigits_of_lt_base hn]
      simpa using Numeral.nil.snoc hn (Or.inl rfl)
    · have hdigits := Nat.toDigits_of_base_le (b := 10) (n := n) (by decide) (by omega)
      have hsnoc := (ih (n / 10) (by omega)).snoc (Nat.mod_lt n (by decide)) (Or.inl rfl)
      rwa [← hdigits, Nat.div_add_mod'] at hsnoc

theorem read_toDigits (n : Nat) {rest : List Char} (h : EndsNumber rest) :
    read ⟨top, outer, .between⟩ ((toString n).toList ++ rest) =
      (put ⟨top, outer, .between⟩ (.number n)).bind fun r => r.read rest := by
  rw [Nat.toString_eq_ofList_toDigits, String.toList_ofList, read_numeral (numeral_toDigits n) Nat.toDigits_ne_nil,
    read_number h]

/-! ## Whole documents -/

theorem endsNumber_renderItems (depth : Nat) (items : List Json) {rest : List Char} (h : EndsNumber rest) :
    EndsNumber ((renderItems depth items).toList ++ rest) := by
  cases items with
  | nil => simpa [renderItems] using h
  | cons item items => simp [EndsNumber, renderItems, digitOf, digitValue]

theorem endsNumber_renderFields (depth : Nat) (fields : List (String × Json)) {rest : List Char} (h : EndsNumber rest) :
    EndsNumber ((renderFields depth fields).toList ++ rest) := by
  cases fields with
  | nil => simpa [renderFields] using h
  | cons field fields => simp [EndsNumber, renderFields, digitOf, digitValue]

/-- a line end and the margin of the next line -/
theorem read_lineEnd (depth : Nat) (rest : List Char) :
    read ⟨top, outer, .between⟩ ('\n' :: ((margin depth).toList ++ rest)) = read ⟨top, outer, .between⟩ rest := by
  have hseps : ∀ c ∈ '\n' :: (margin depth).toList, c ∈ separators := by
    intro c hc
    rcases List.mem_cons.1 hc with rfl | hc
    · decide
    · exact mem_separators_of_mem_margin hc
  exact read_separators hseps rest

/-- an opening bracket opens a frame inside the one at hand, and its closing bracket puts it there -/
theorem read_bracket (cs : List Char) :
    read ⟨top, outer, .between⟩ ('[' :: cs) = read ⟨.array [], top :: outer, .between⟩ cs := rfl

theorem read_bracket_end (items : List Json) (cs : List Char) :
    read ⟨.array items, top :: outer, .between⟩ (']' :: cs) =
      (put ⟨top, outer, .between⟩ (.array items)).bind fun r => r.read cs := rfl

theorem read_brace (cs : List Char) :
    read ⟨top, outer, .between⟩ ('\x7b' :: cs) = read ⟨.object [] none, top :: outer, .between⟩ cs := rfl

theorem read_brace_end (fields : List (String × Json)) (cs : List Char) :
    read ⟨.object fields none, top :: outer, .between⟩ ('\x7d' :: cs) =
      (put ⟨top, outer, .between⟩ (.object fields)).bind fun r => r.read cs := rfl

/-- a key makes the object wait for its value -/
theorem read_key (before : List (String × Json)) (key : String) (rest : List Char) :
    read ⟨.object before none, outer, .between⟩ ((quote key).toList ++ ([':', ' '] ++ rest)) =
      read ⟨.object before (some key), outer, .between⟩ rest := by
  rw [read_quote]
  exact read_separators (by simp [separators]) rest

mutual

/-- the indented form of a document is read, whatever was read before it and whatever follows -/
theorem read_render (depth : Nat) (j : Json) (top : Frame) (outer : List Frame) {rest : List Char}
    (h : EndsNumber rest) :
    read ⟨top, outer, .between⟩ ((render depth j).toList ++ rest) =
      (put ⟨top, outer, .between⟩ j).bind fun r => r.read rest := by
  match j with
  | .string s => rw [render, read_quote]
  | .number n => rw [render, read_toDigits n h]
  | .array [] =>
    rw [render]
    exact read_bracket_end [] rest
  | .array (item :: items) =>
    have htext : (render depth (.array (item :: items))).toList ++ rest =
        '[' :: '\n' :: ((margin (depth + 1)).toList ++ ((render (depth + 1) item).toList ++
          ((renderItems (depth + 1) items).toList ++ '\n' :: ((margin depth).toList ++ ']' :: rest)))) := by
      simp [render]
    have hend : EndsNumber ('\n' :: ((margin depth).toList ++ ']' :: rest)) := rfl
    rw [htext, read_bracket, read_lineEnd, read_render (depth + 1) item _ _ (endsNumber_renderItems _ items hend)]
    exact (read_renderItems (depth + 1) items [item] _ hend).trans (read_lineEnd depth _)
  | .object [] =>
    rw [render]
    exact read_brace_end [] rest
  | .object ((key, value) :: fields) =>
    have htext : (render depth (.object ((key, value) :: fields))).toList ++ rest =
        '\x7b' :: '\n' :: ((margin (depth + 1)).toList ++ ((quote key).toList ++ ([':', ' '] ++
          ((render (depth + 1) value).toList ++
            ((renderFields (depth + 1) fields).toList ++ '\n' :: ((margin depth).toList ++ '\x7d' :: rest)))))) := by
      simp [render]
    have hend : EndsNumber ('\n' :: ((margin depth).toList ++ '\x7d' :: rest)) := rfl
    rw [htext, read_brace, read_lineEnd, read_key,
      read_render (depth + 1) value _ _ (endsNumber_renderFields _ fields hend)]
    exact (read_renderFields (depth + 1) fields [(key, value)] _ hend).trans (read_lineEnd depth _)

theorem read_renderItems (depth : Nat) (items before : List Json) (outer : List Frame) {rest : List Char}
    (h : EndsNumber rest) :
    read ⟨.array before, outer, .between⟩ ((renderItems depth items).toList ++ rest) =
      read ⟨.array (before ++ items), outer, .between⟩ rest := by
  match items with
  | [] => simp [renderItems]
  | item :: items =>
    have htext : (renderItems depth (item :: items)).toList ++ rest =
        [','] ++ '\n' :: ((margin depth).toList ++ ((render depth item).toList ++
          ((renderItems depth items).toList ++ rest))) := by
      simp [renderItems]
    have hsplit : before ++ item :: items = (before ++ [item]) ++ items := by simp
    rw [htext, read_separators (by simp [separators]), read_lineEnd,
      read_render depth item _ _ (endsNumber_renderItems _ items h), hsplit]
    exact read_renderItems depth items (before ++ [item]) outer h

theorem read_renderFields (depth : Nat) (fields before : List (String × Json)) (outer : List Frame) {rest : List Char}
    (h : EndsNumber rest) :
    read ⟨.object before none, outer, .between⟩ ((renderFields depth fields).toList ++ rest) =
      read ⟨.object (before ++ fields) none, outer, .between⟩ rest := by
  match fields with
  | [] => simp [renderFields]
  | (key, value) :: fields =>
    have htext : (renderFields depth ((key, value) :: fields)).toList ++ rest =
        [','] ++ '\n' :: ((margin depth).toList ++ ((quote key).toList ++ ([':', ' '] ++
          ((render depth value).toList ++ ((renderFields depth fields).toList ++ rest))))) := by
      simp [renderFields]
    have hsplit : before ++ (key, value) :: fields = (before ++ [(key, value)]) ++ fields := by simp
    rw [htext, read_separators (by simp [separators]), read_lineEnd, read_key,
      read_render depth value _ _ (endsNumber_renderFields _ fields h), hsplit]
    exact read_renderFields depth fields (before ++ [(key, value)]) outer h

end

end Reader

theorem read?_render (depth : Nat) (j : Json) : read? (j.render depth) = some j := by
  have h := Reader.read_render depth j (.array []) [] (show Reader.EndsNumber [] from rfl)
  rwa [List.append_nil] at h

theorem read?_pretty (j : Json) : read? j.pretty = some j := read?_render 0 j

end ScriptTriage.Json

import Mathlib.Data.List.TakeWhile
import ScriptTriage.Number.Literal
import ScriptTriage.Proofs.Number.Numeral
import ScriptTriage.Proofs.Number.Rounding

/-
The forms in which a script writes a natural number: decimal, with the mark of a base, or as a legacy octal. Underscores
may stand anywhere among the characters, and an `n` may stand at the end.

- `Form.Spells`, `Form.Token`: what it means that characters write a number in a form, said without reading them.
- `cleaned_of_token`: cleaning leaves the mark and the digits, in lower case.
- `valueOf_of_token`: a token is read as its number, rounded, in whichever form; but what needs more than 64 bits is no
  number unless it is written in decimal.
-/

namespace ScriptTriage.Number

/-! ## Forms -/

/-- a way to write a natural number -/
inductive Form where
  | decimal
  | hexadecimal
  | octal
  | binary
  /-- octal digits behind a zero -/
  | legacyOctal
deriving DecidableEq, Repr

namespace Form

def base : Form → Nat
  | .decimal => 10
  | .hexadecimal => 16
  | .octal | .legacyOctal => 8
  | .binary => 2

/-- what stands in front of the digits -/
def marks : Form → List (List Char)
  | .decimal => [[]]
  | .hexadecimal => [['0', 'x'], ['0', 'X']]
  | .octal => [['0', 'o'], ['0', 'O']]
  | .binary => [['0', 'b'], ['0', 'B']]
  | .legacyOctal => [['0']]

/-- the characters write `n` in this form, with nothing among them or behind; only decimal digits have no leading zeros -/
inductive Spells (form : Form) (n : Nat) : List Char → Prop where
  | intro {mark digits : List Char} (hmark : mark ∈ form.marks) (hdigits : Numeral form.base digits n)
      (hne : digits ≠ []) (hzero : form = .decimal → digits.head? = some '0' → digits = ['0']) :
    Spells form n (mark ++ digits)

end Form

/-- the second text is the first one, with underscores put in anywhere -/
inductive Spread : List Char → List Char → Prop where
  | nil : Spread [] []
  | keep {cs text : List Char} (c : Char) (h : Spread cs text) : Spread (c :: cs) (c :: text)
  | underscore {cs text : List Char} (h : Spread cs text) : Spread cs ('_' :: text)

/-- the text writes `n` in this form, with any underscores and with or without an `n` at the end -/
def Form.Token (form : Form) (n : Nat) (text : List Char) : Prop :=
  ∃ cs, form.Spells n cs ∧ (Spread cs text ∨ Spread (cs ++ ['n']) text)

/-! ## Cleaning a token -/

theorem Spread.filter_eq {cs text : List Char} (h : Spread cs text) (hcs : '_' ∉ cs) :
    text.filter (· ≠ '_') = cs := by
  induction h with
  | nil => rfl
  | keep c _ ih =>
    have hc : c ≠ '_' := fun heq => hcs (heq ▸ List.mem_cons_self)
    have hrest := ih fun hmem => hcs (List.mem_cons_of_mem c hmem)
    rw [List.filter_cons_of_pos (by simpa using hc), hrest]
  | underscore _ ih =>
    rw [List.filter_cons_of_neg (by simp)]
    exact ih hcs

theorem spread_of_filter_eq {cs text : List Char} (h : text.filter (· ≠ '_') = cs) : Spread cs text := by
  subst h
  induction text with
  | nil => exact .nil
  | cons c text ih =>
    by_cases hc : c = '_'
    · rw [hc, List.filter_cons_of_neg (by simp)]
      exact .underscore ih
    · rw [List.filter_cons_of_pos (by simpa using hc)]
      exact .keep c ih

theorem lowerAscii_of_writes {c : Char} {d : Nat} (hd : d < 16) (h : Writes c d) : lowerAscii c = d.digitChar := by
  have hall : ∀ d < 16, lowerAscii d.digitChar = d.digitChar ∧ lowerAscii d.digitChar.toUpper = d.digitChar := by decide
  rcases h with rfl | rfl
  · exact (hall d hd).1
  · exact (hall d hd).2

theorem Numeral.map_lowerAscii {base : Nat} (hbase : base ≤ 16) {cs : List Char} {n : Nat} (h : Numeral base cs n) :
    Numeral base (cs.map lowerAscii) n := by
  induction h with
  | nil => exact .nil
  | snoc _ hd hc ih =>
    rw [List.map_append, List.map_singleton, lowerAscii_of_writes (by omega) hc]
    exact ih.snoc hd (.inl rfl)

/-- what writes no digit of the base is not among the digits of a numeral -/
theorem Numeral.not_mem {base bound : Nat} (hbase : base ≤ bound) {cs : List Char} {n : Nat} (h : Numeral base cs n)
    {x : Char} (hx : ∀ d < bound, ¬Writes x d) : x ∉ cs := by
  intro hmem
  obtain ⟨d, hd, hw⟩ := h.exists_writes_of_mem hmem
  exact hx d (by omega) hw

namespace Form

theorem base_le (form : Form) : form.base ≤ 16 := by cases form <;> decide

theorem underscore_not_mem {form : Form} {n : Nat} {cs : List Char} (h : form.Spells n cs) : '_' ∉ cs := by
  obtain ⟨hmark, hdigits, -, -⟩ := h
  have hmarks : form.marks.all (fun mark => !mark.contains '_') = true := by cases form <;> decide
  rw [List.mem_append, not_or]
  refine ⟨?_, hdigits.not_mem form.base_le (by decide)⟩
  simpa using List.all_eq_true.1 hmarks _ hmark

theorem getLast?_ne {form : Form} {n : Nat} {cs : List Char} (h : form.Spells n cs) : cs.getLast? ≠ some 'n' := by
  obtain ⟨-, hdigits, hne, -⟩ := h
  rw [List.getLast?_append, List.getLast?_eq_some_getLast hne, Option.some_or]
  intro hlast
  have hmem := List.getLast_mem hne
  rw [Option.some.inj hlast] at hmem
  exact hdigits.not_mem form.base_le (by decide) hmem

theorem cleaned_of_token {form : Form} {n : Nat} {text : List Char} (h : form.Token n text) :
    ∃ cs, form.Spells n cs ∧ cleaned text = cs.map lowerAscii := by
  obtain ⟨cs, hspells, hspread⟩ := h
  refine ⟨cs, hspells, ?_⟩
  have hnone := underscore_not_mem hspells
  rcases hspread with hspread | hspread
  · have hplain := hspread.filter_eq hnone
    simp only [cleaned, hplain, if_neg (getLast?_ne hspells)]
  · have hplain := hspread.filter_eq (by simpa using hnone)
    simp only [cleaned, hplain, List.getLast?_concat, if_true, List.dropLast_concat]

end Form

/-! ## Reading digits -/

theorem parseWord_of_numeral {base : Nat} (hbase : base ≤ 16) {cs : List Char} {n : Nat} (h : Numeral base cs n)
    (hne : cs ≠ []) : parseWord base cs = if n ≤ wordLimit then Binary64.ofNat n else Binary64.nan := by
  split
  · rename_i hn
    simp only [parseWord, parseBounded_of_numeral hbase h hne hn]
  · rename_i hn
    simp only [parseWord, parseBounded_eq_none_of_numeral hbase h hne (Nat.lt_of_not_le hn)]

theorem decimalValue_of_numeral {cs : List Char} {n : Nat} (h : Numeral 10 cs n) : decimalValue cs = n := by
  have hall : ∀ d < 10, d.digitChar.toNat - '0'.toNat = d ∧ d.digitChar.toUpper.toNat - '0'.toNat = d := by decide
  induction h with
  | nil => rfl
  | @snoc cs n c d _ hd hc ih =>
    have hdigit : c.toNat - '0'.toNat = d := by
      rcases hc with rfl | rfl
      · exact (hall d hd).1
      · exact (hall d hd).2
    rw [decimalValue] at ih
    rw [decimalValue, List.foldl_append, ih, List.foldl_cons, List.foldl_nil, hdigit]

theorem isDigit_of_writes {c : Char} {d : Nat} (hd : d < 10) (h : Writes c d) : isDigit c = true := by
  have hall : ∀ d < 10, isDigit d.digitChar = true ∧ isDigit d.digitChar.toUpper = true := by decide
  rcases h with rfl | rfl
  · exact (hall d hd).1
  · exact (hall d hd).2

theorem isOctalDigit_of_writes {c : Char} {d : Nat} (hd : d < 8) (h : Writes c d) : isOctalDigit c = true := by
  have hall : ∀ d < 8, isOctalDigit d.digitChar = true ∧ isOctalDigit d.digitChar.toUpper = true := by decide
  rcases h with rfl | rfl
  · exact (hall d hd).1
  · exact (hall d hd).2

theorem ofDecimal_natural (n count : Nat) : Binary64.ofDecimal false n count 0 = Binary64.ofNat n := by
  unfold Binary64.ofDecimal Binary64.ofNat
  split
  · rename_i hzero
    rw [hzero]
  · have hsmall : ¬(400 : Int) < 0 := by decide
    have hlarge : ¬(0 : Int) + count < -400 := by omega
    rw [if_neg hsmall, if_neg hlarge, if_pos (Int.le_refl 0)]
    exact congrArg (fun n => Binary64.ofRatio false n 1) (Nat.mul_one n)

theorem lowerAscii_of_isDigit {c : Char} (h : isDigit c = true) : lowerAscii c = c := by
  have hle : c ≤ '9' := by
    simp only [isDigit, Bool.and_eq_true, decide_eq_true_eq] at h
    exact h.2
  have hnot : ¬ 'A' ≤ c := fun hge => absurd (Char.le_trans hge hle) (by decide)
  simp [lowerAscii, hnot]

theorem Numeral.isDigit_of_mem {cs : List Char} {n : Nat} (h : Numeral 10 cs n) : ∀ c ∈ cs, isDigit c = true := by
  intro c hc
  obtain ⟨d, hd, hw⟩ := h.exists_writes_of_mem hc
  exact isDigit_of_writes hd hw

theorem map_lowerAscii_of_isDigit {cs : List Char} (h : ∀ c ∈ cs, isDigit c = true) : cs.map lowerAscii = cs := by
  have hsame : ∀ c ∈ cs, lowerAscii c = id c := fun c hc => lowerAscii_of_isDigit (h c hc)
  rw [List.map_congr_left hsame, List.map_id]

theorem splitSign_of_isDigit {c : Char} (h : isDigit c = true) (rest : List Char) :
    splitSign (c :: rest) = (false, c :: rest) := by
  unfold splitSign
  split
  · rename_i heq
    rw [(List.cons.inj heq).1] at h
    exact absurd h (by decide)
  · rename_i heq
    rw [(List.cons.inj heq).1] at h
    exact absurd h (by decide)
  · rfl

/-- digits are none of the words for infinity and for no number -/
theorem ofList_ne_of_isDigit {c : Char} (h : isDigit c = true) (rest : List Char) {word : String}
    (hword : word.toList.head?.any isDigit = false) : String.ofList (c :: rest) ≠ word := by
  rintro rfl
  simp [h] at hword

theorem parseDecimal_of_numeral {cs : List Char} {n : Nat} (h : Numeral 10 cs n) (hne : cs ≠ []) :
    parseDecimal cs = some (Binary64.ofNat n) := by
  have hdigits := h.isDigit_of_mem
  have hwhole : cs.takeWhile isDigit = cs := List.takeWhile_eq_self_iff.2 hdigits
  have hnothing : cs.dropWhile isDigit = [] := List.dropWhile_eq_nil_iff.2 hdigits
  have hlower := map_lowerAscii_of_isDigit hdigits
  have hvalue := decimalValue_of_numeral h
  cases cs with
  | nil => exact absurd rfl hne
  | cons c rest =>
    have hc := hdigits c List.mem_cons_self
    have hinf : String.ofList (c :: rest) ≠ "inf" := ofList_ne_of_isDigit hc rest (by decide)
    have hinfinity : String.ofList (c :: rest) ≠ "infinity" := ofList_ne_of_isDigit hc rest (by decide)
    have hnan : String.ofList (c :: rest) ≠ "nan" := ofList_ne_of_isDigit hc rest (by decide)
    simp only [parseDecimal, splitSign_of_isDigit hc rest, hlower, hwhole, hnothing, hinf, hinfinity, hnan, decide_false,
      Bool.or_false, Bool.false_eq_true, if_false, List.isEmpty_cons, Bool.false_and, parseExponent, Option.map_some,
      List.append_nil, hvalue]
    exact congrArg some (ofDecimal_natural n _)

/-! ## Reading a token -/

namespace Form

theorem valueOfCleaned_of_decimal {cs : List Char} (h : cs.head? = some '0' → cs = ['0']) :
    valueOfCleaned cs = (parseDecimal cs).getD Binary64.nan := by
  have hshort (c : Char) (rest : List Char) : cs ≠ '0' :: c :: rest := by
    intro heq
    rw [heq] at h
    cases h rfl
  unfold valueOfCleaned
  split
  · exact absurd rfl (hshort _ _)
  · exact absurd rfl (hshort _ _)
  · exact absurd rfl (hshort _ _)
  · split
    · exact absurd rfl (hshort _ _)
    · rfl

theorem valueOfCleaned_of_legacyOctal {cs : List Char} {n : Nat} (h : Numeral 8 cs n) (hne : cs ≠ []) :
    valueOfCleaned ('0' :: cs) = parseWord 8 cs := by
  have hoctal : cs.all isOctalDigit = true := by
    rw [List.all_eq_true]
    intro c hc
    obtain ⟨d, hd, hw⟩ := h.exists_writes_of_mem hc
    exact isOctalDigit_of_writes hd hw
  cases cs with
  | nil => exact absurd rfl hne
  | cons c rest =>
    have hc : isOctalDigit c = true := List.all_eq_true.1 hoctal c List.mem_cons_self
    -- an octal digit is none of the letters that mark a base
    have hletter {x : Char} {digits : List Char} (heq : '0' :: c :: rest = '0' :: x :: digits)
        (hx : isOctalDigit x = false) : False := by
      rw [(List.cons.inj (List.cons.inj heq).2).1, hx] at hc
      cases hc
    unfold valueOfCleaned
    split
    · rename_i heq
      exact (hletter heq (by decide)).elim
    · rename_i heq
      exact (hletter heq (by decide)).elim
    · rename_i heq
      exact (hletter heq (by decide)).elim
    · simp only [hoctal, if_true]

theorem valueOfCleaned_of_marked {form : Form} (hform : form ≠ .decimal) {mark digits : List Char} {n : Nat}
    (hmark : mark ∈ form.marks) (h : Numeral form.base digits n) (hne : digits ≠ []) :
    valueOfCleaned (mark.map lowerAscii ++ digits) = parseWord form.base digits := by
  cases form with
  | decimal => exact absurd rfl hform
  | legacyOctal =>
    rw [List.mem_singleton.1 hmark]
    exact valueOfCleaned_of_legacyOctal h hne
  | _ =>
    -- the mark is a zero and a letter, in either case
    simp only [marks, List.mem_cons, List.not_mem_nil, or_false] at hmark
    rcases hmark with rfl | rfl
    · rfl
    · rfl

/-- a token is read as its number, or as no number if it is marked and needs more than 64 bits -/
theorem valueOf_of_token {form : Form} {n : Nat} {text : String} (h : form.Token n text.toList) :
    valueOf text = if form = .decimal ∨ n ≤ wordLimit then Binary64.ofNat n else Binary64.nan := by
  obtain ⟨cs, ⟨hmark, hdigits, hne, hzero⟩, hcleaned⟩ := cleaned_of_token h
  rw [valueOf, hcleaned, List.map_append]
  by_cases hform : form = .decimal
  · subst hform
    rw [if_pos (.inl rfl), List.mem_singleton.1 hmark, List.map_nil, List.nil_append,
      map_lowerAscii_of_isDigit hdigits.isDigit_of_mem, valueOfCleaned_of_decimal (hzero rfl),
      parseDecimal_of_numeral hdigits hne, Option.getD_some]
  · have hlower := hdigits.map_lowerAscii form.base_le
    have hlowerNe := mt (List.map_eq_nil_iff (f := lowerAscii)).1 hne
    rw [valueOfCleaned_of_marked hform hmark hlower hlowerNe, parseWord_of_numeral form.base_le hlower hlowerNe]
    simp only [hform, false_or]

end Form

/-- **All forms of a number are read alike.** A natural number below two to the power 64 is read from every token, in
whichever form, as the same bit pattern: that of the nearest number, and of the even one of two that are equally near. A
greater one is read so from every decimal token, which gives infinity exactly if the number is at least halfway from the
greatest number to the power of two above; from any other token it is read as no number. -/
theorem valueOf_token {form : Form} {n : Nat} {text : String} (h : form.Token n text.toList) :
    (n < Nat.pow 2 64 ∨ form = .decimal → ∀ x, Binary64.Rounds n x ↔ x = valueOf text) ∧
    (Nat.pow 2 64 ≤ n → form ≠ .decimal → (valueOf text).isNaN = true) ∧
    (form = .decimal → (valueOf text = Binary64.infinity false ↔
      Binary64.units (Binary64.infinityBits - 1) + Binary64.units Binary64.infinityBits ≤
        2 * (n * Binary64.unitsOfOne))) := by
  have hlimit : Nat.pow 2 64 = wordLimit + 1 := by decide
  rw [Form.valueOf_of_token h, hlimit]
  refine ⟨fun hread x => ?_, fun hlarge hform => ?_, fun hform => ?_⟩
  · have hfits : form = .decimal ∨ n ≤ wordLimit := hread.symm.imp_right Nat.le_of_lt_succ
    rw [if_pos hfits, Binary64.rounds_iff]
  · have hexceeds : ¬n ≤ wordLimit := by omega
    rw [if_neg (not_or.2 ⟨hform, hexceeds⟩)]
    decide
  · rw [if_pos (.inl hform), Binary64.ofNat_eq_infinity_iff]

/-! ### Numbers that need more than 53 or 64 bits -/

theorem token_hexadecimal : Form.hexadecimal.Token 9007199254740993 "0X20_0000_0000_0001n".toList := by
  have hdigits : Numeral 16 "20000000000001".toList 9007199254740993 := (digitsValue_eq_some_iff (by decide)).1 (by decide)
  have hspells : Form.hexadecimal.Spells 9007199254740993 (['0', 'X'] ++ "20000000000001".toList) :=
    .intro (by decide) hdigits (by decide) (by decide)
  exact ⟨_, hspells, .inr (spread_of_filter_eq (by decide))⟩

theorem token_decimal : Form.decimal.Token 9007199254740993 "9007199254740993".toList := by
  have hdigits : Numeral 10 "9007199254740993".toList 9007199254740993 :=
    (digitsValue_eq_some_iff (by decide)).1 (by decide)
  have hspells : Form.decimal.Spells 9007199254740993 ([] ++ "9007199254740993".toList) :=
    .intro (by decide) hdigits (by decide) (by decide)
  exact ⟨_, hspells, .inl (spread_of_filter_eq (by decide))⟩

theorem token_legacyOctal : Form.legacyOctal.Token (Nat.pow 2 64) "0_2000000000000000000000".toList := by
  have hdigits : Numeral 8 "2000000000000000000000".toList (Nat.pow 2 64) :=
    (digitsValue_eq_some_iff (by decide)).1 (by decide)
  have hspells : Form.legacyOctal.Spells (Nat.pow 2 64) (['0'] ++ "2000000000000000000000".toList) :=
    .intro (by decide) hdigits (by decide) (by decide)
  exact ⟨_, hspells, .inl (spread_of_filter_eq (by decide))⟩

/-- a number halfway between two others goes to the even one, in both forms, and a legacy octal of 65 bits is no number -/
theorem valueOf_token_halfway :
    Form.hexadecimal.Token 9007199254740993 "0X20_0000_0000_0001n".toList ∧
    Form.decimal.Token 9007199254740993 "9007199254740993".toList ∧
    valueOf "0X20_0000_0000_0001n" = valueOf "9007199254740993" ∧
    Binary64.Rounds 9007199254740993 ⟨0x4340000000000000⟩ ∧
    Form.legacyOctal.Token (Nat.pow 2 64) "0_2000000000000000000000".toList ∧
    (valueOf "0_2000000000000000000000").isNaN = true := by
  have hhexadecimal := (valueOf_token token_hexadecimal).1 (.inl (by decide))
  have hdecimal := (valueOf_token token_decimal).1 (.inr rfl)
  have hsame : valueOf "0X20_0000_0000_0001n" = valueOf "9007199254740993" := (hdecimal _).1 ((hhexadecimal _).2 rfl)
  have hpattern : Binary64.Rounds 9007199254740993 ⟨0x4340000000000000⟩ := (hdecimal _).2 (by decide)
  have hlegacy := (valueOf_token token_legacyOctal).2.1 (by decide) (by decide)
  exact ⟨token_hexadecimal, token_decimal, hsame, hpattern, token_legacyOctal, hlegacy⟩

end ScriptTriage.Number

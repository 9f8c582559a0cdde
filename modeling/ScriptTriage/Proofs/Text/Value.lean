import ScriptTriage.Proofs.Text.Spelling

/-
The value of a string literal, and the text it is read as.

`Delimited` lists the escape sequences that a literal may hold, and `Denotes` gives the code units that each of them
stands for in the language: an octal escape ends before its number would exceed 0o377, and the digits that are left over
stand for themselves; a code point in braces may be half of a surrogate pair. `Value` puts the units of a whole content
together.

- `denotes_cases`: an escape is read as what it denotes, unless it is `Misread`: an octal number above 0o377, or half of
  a pair in braces, stands for its own text.
- `length_of_value`: a misread escape always makes the text longer, whatever stands around it.
- `decode_value_iff`: so a literal is read as the lossy decoding of its value exactly if none of its escapes is misread.
-/

namespace ScriptTriage.Text

open ScriptTriage.Number

/-! ## Values -/

/-- an escape sequence of the language -/
inductive Delimited : List Char → Prop where
  | single {c} (h : c ∉ 'x' :: 'u' :: octalDigits) : Delimited ['\\', c]
  | octal {ds n} (h : Numeral 8 ds n) (hpos : 1 ≤ ds.length) (hlen : ds.length ≤ 3) : Delimited ('\\' :: ds)
  | hex {ds n} (h : Numeral 16 ds n) (hlen : ds.length = 2) : Delimited ('\\' :: 'x' :: ds)
  | unit {ds n} (h : Numeral 16 ds n) (hlen : ds.length = 4) : Delimited ('\\' :: 'u' :: ds)
  | codePoint {ds n} (h : Numeral 16 ds n) (hne : ds ≠ []) (hn : n ≤ 0x10FFFF) :
    Delimited ('\\' :: 'u' :: '\x7b' :: (ds ++ ['\x7d']))
  | continuation {lineBreak} (h : lineBreak ∈ lineBreaks) : Delimited ('\\' :: lineBreak)

/-- the code units that an escape sequence stands for in the language -/
inductive Denotes : List Char → List CodeUnit → Prop where
  | named {c letter} (h : (c, letter) ∈ namedEscapes) : Denotes ['\\', letter] (unitsOfCodePoint c.toNat)
  | itself {c} (h : c ∉ escapeStarts) : Denotes ['\\', c] (unitsOfCodePoint c.toNat)
  | continuation {lineBreak} (h : lineBreak ∈ lineBreaks) : Denotes ('\\' :: lineBreak) []
  /-- the longest number up to 0o377, and the digits behind it -/
  | octal {ds rest n} (h : Numeral 8 ds n) (hne : ds ≠ []) (hn : n ≤ 0o377) (hrest : ∀ d ∈ rest, d ∈ octalDigits)
    (hlen : (ds ++ rest).length ≤ 3)
    (hlongest : ∀ d more m, rest = d :: more → Numeral 8 (ds ++ [d]) m → 0o377 < m) :
    Denotes ('\\' :: (ds ++ rest)) (UInt16.ofNat n :: units rest)
  | hex {ds n} (h : Numeral 16 ds n) (hlen : ds.length = 2) : Denotes ('\\' :: 'x' :: ds) [UInt16.ofNat n]
  | unit {ds n} (h : Numeral 16 ds n) (hlen : ds.length = 4) : Denotes ('\\' :: 'u' :: ds) [UInt16.ofNat n]
  | codePoint {ds n} (h : Numeral 16 ds n) (hne : ds ≠ []) (hn : n ≤ 0x10FFFF) :
    Denotes ('\\' :: 'u' :: '\x7b' :: (ds ++ ['\x7d'])) (unitsOfCodePoint n)

/-- the code units that the content of a literal stands for in the language -/
inductive Value : List Segment → List CodeUnit → Prop where
  | nil : Value [] []
  | fragment {segments us} (text : String) (h : Value segments us) :
    Value (.fragment text :: segments) (units text.toList ++ us)
  | escape {sequence vs segments us} (hs : Denotes sequence.toList vs) (h : Value segments us) :
    Value (.escape sequence :: segments) (vs ++ us)

/-- the escapes that are read as their own text -/
inductive Misread : List Char → Prop where
  | octal {ds n} (h : Numeral 8 ds n) (hn : 0o377 < n) : Misread ('\\' :: ds)
  | surrogate {ds n} (h : Numeral 16 ds n) (hn : 0xD800 ≤ n ∧ n ≤ 0xDFFF) :
    Misread ('\\' :: 'u' :: '\x7b' :: (ds ++ ['\x7d']))

/-! ## Every escape denotes something -/

theorem denotes_single {c : Char} (h : c ∉ 'x' :: 'u' :: octalDigits) : ∃ us, Denotes ['\\', c] us := by
  by_cases hstart : c ∈ escapeStarts
  · have hall : (escapeStarts.all fun c => ('x' :: 'u' :: octalDigits).contains c ||
        namedEscapes.any (fun p => p.2 == c) || lineBreaks.contains [c]) = true := by decide
    have hc := List.all_eq_true.1 hall c hstart
    simp only [Bool.or_eq_true, List.contains_iff_mem, List.any_eq_true, beq_iff_eq] at hc
    rcases hc with (hother | ⟨p, hp, rfl⟩) | hbreak
    · exact absurd hother h
    · exact ⟨_, .named hp⟩
    · exact ⟨_, .continuation hbreak⟩
  · exact ⟨_, .itself hstart⟩

theorem denotes_octal {ds : List Char} {n : Nat} (h : Numeral 8 ds n) (hpos : 1 ≤ ds.length) (hlen : ds.length ≤ 3) :
    ∃ us, Denotes ('\\' :: ds) us := by
  by_cases hn : n ≤ 0o377
  · have hwhole := @Denotes.octal ds [] n h (List.ne_nil_of_length_pos hpos) hn (by simp) (by simpa using hlen) (by simp)
    rw [List.append_nil] at hwhole
    exact ⟨_, hwhole⟩
  · -- the last digit is too much, and two digits never are
    have hnumeral := h
    cases h with
    | nil => omega
    | @snoc init n₀ c d hinit hd hc =>
      rw [List.length_append, List.length_singleton] at hlen
      have hlt : n₀ < 64 := hinit.lt_pow_of_le (by decide) (by omega : init.length ≤ 2)
      refine ⟨_, .octal hinit (hinit.ne_nil (by omega)) (by omega) ?_ (by simpa using hlen) ?_⟩
      · intro x hx
        rw [List.mem_singleton.1 hx]
        exact mem_octalDigits_of_writes hd hc
      · intro x more m hrest hm
        cases hrest
        rw [hm.unique (by decide) hnumeral]
        omega

theorem Delimited.exists_denotes {sequence : List Char} (h : Delimited sequence) : ∃ us, Denotes sequence us := by
  cases h with
  | single h => exact denotes_single h
  | octal h hpos hlen => exact denotes_octal h hpos hlen
  | hex h hlen => exact ⟨_, .hex h hlen⟩
  | unit h hlen => exact ⟨_, .unit h hlen⟩
  | codePoint h hne hn => exact ⟨_, .codePoint h hne hn⟩
  | continuation h => exact ⟨_, .continuation h⟩

/-! ## Misread escapes -/

theorem escapeUnits_of_misread {sequence : List Char} (h : Misread sequence) :
    escapeUnits sequence = units sequence.tail := by
  cases h with
  | octal h hn =>
    have hne := h.ne_nil (by omega)
    rw [escapeUnits_digits h hne, parseBounded_eq_none_of_numeral (by decide) h hne hn]
    rfl
  | @surrogate ds n h hn =>
    have hnumber : parseBounded 16 0xFFFFFFFF ds = some n :=
      parseBounded_of_numeral (Nat.le_refl 16) h (h.ne_nil (by omega)) (by omega)
    have hbraced : braced? ('\x7b' :: (ds ++ ['\x7d'])) = some ds := by simp [braced?]
    have hchar : charOfNat? n = none := by
      unfold charOfNat?
      rw [if_neg]
      simp only [Bool.or_eq_true, decide_eq_true_eq, Bool.and_eq_true]
      omega
    simp [escapeUnits, escapeBodyUnits, unicodeUnits, hbraced, hnumber, hchar]

theorem misread_octal_iff {ds : List Char} {n : Nat} (h : Numeral 8 ds n) : Misread ('\\' :: ds) ↔ 0o377 < n := by
  constructor
  · intro hmis
    cases hmis with
    | octal h' hn =>
      rw [h.unique (by decide) h']
      exact hn
    | surrogate h' hn =>
      obtain ⟨d, hd, hw⟩ := h.exists_writes_of_mem List.mem_cons_self
      exact absurd (mem_octalDigits_of_writes hd hw) (by decide)
  · exact fun hn => .octal h hn

theorem misread_codePoint_iff {ds : List Char} {n : Nat} (h : Numeral 16 ds n) :
    Misread ('\\' :: 'u' :: '\x7b' :: (ds ++ ['\x7d'])) ↔ 0xD800 ≤ n ∧ n ≤ 0xDFFF := by
  constructor
  · intro hmis
    generalize hsequence : '\\' :: 'u' :: '\x7b' :: (ds ++ ['\x7d']) = sequence at hmis
    cases hmis with
    | octal h' hn =>
      cases hsequence
      obtain ⟨d, hd, hw⟩ := h'.exists_writes_of_mem List.mem_cons_self
      exact absurd (mem_octalDigits_of_writes hd hw) (by decide)
    | @surrogate ds' m h' hn =>
      have hds : ds = ds' := by simpa using hsequence
      subst hds
      rw [h.unique (Nat.le_refl 16) h']
      exact hn
  · exact fun hn => .surrogate h hn

/-- what a misread escape starts with -/
theorem Misread.shape {sequence : List Char} (h : Misread sequence) :
    (∃ d rest, sequence = '\\' :: d :: rest ∧ d ∈ octalDigits ∧ 2 ≤ rest.length) ∨
    ∃ rest, sequence = '\\' :: 'u' :: '\x7b' :: rest := by
  cases h with
  | surrogate => exact .inr ⟨_, rfl⟩
  | @octal ds n h hn =>
    cases ds with
    | nil => exact absurd rfl (h.ne_nil (by omega))
    | cons d rest =>
      obtain ⟨v, hv, hw⟩ := h.exists_writes_of_mem List.mem_cons_self
      have hlen : 2 < (d :: rest).length := h.lt_length (by decide) (by simp only [Nat.pow_eq]; omega)
      exact .inl ⟨d, rest, rfl, mem_octalDigits_of_writes hv hw, Nat.le_of_lt_succ hlen⟩

theorem not_misread_single (c : Char) : ¬ Misread ['\\', c] := by
  intro h
  rcases h.shape with ⟨d, rest, hsequence, -, hlen⟩ | ⟨rest, hsequence⟩
  · cases hsequence
    cases hlen
  · cases hsequence

theorem not_misread_of_head {c : Char} {rest : List Char} (hc : c ∉ octalDigits)
    (hbrace : c = 'u' → rest.head? ≠ some '\x7b') : ¬ Misread ('\\' :: c :: rest) := by
  intro h
  rcases h.shape with ⟨d, rest', hsequence, hd, -⟩ | ⟨rest', hsequence⟩
  · cases hsequence
    exact hc hd
  · cases hsequence
    exact hbrace rfl rfl

theorem exists_writes_of_mem_octalDigits {d : Char} (h : d ∈ octalDigits) : ∃ v < 8, Writes d v := by
  have hall : (octalDigits.all fun d => (List.range 8).any fun v => decide (Writes d v)) = true := by decide
  have hd := List.all_eq_true.1 hall d h
  simpa using hd

/-- an octal escape with digits left over: it has three, and they spell a number above 0o377 -/
theorem octal_left_over {ds more : List Char} {d : Char} {n : Nat} (h : Numeral 8 ds n) (hd : d ∈ octalDigits)
    (hlen : (ds ++ d :: more).length ≤ 3) (hlongest : ∀ m, Numeral 8 (ds ++ [d]) m → 0o377 < m) :
    more = [] ∧ ds.length = 2 ∧ ∃ m, Numeral 8 (ds ++ [d]) m ∧ 0o377 < m := by
  obtain ⟨v, hv, hw⟩ := exists_writes_of_mem_octalDigits hd
  have hnumeral := h.snoc hv hw
  have hlarge := hlongest _ hnumeral
  have hthree : 2 < (ds ++ [d]).length := hnumeral.lt_length (by decide) (by simp only [Nat.pow_eq]; omega)
  rw [List.length_append, List.length_cons] at hlen
  rw [List.length_append, List.length_singleton] at hthree
  exact ⟨List.eq_nil_of_length_eq_zero (by omega), by omega, _, hnumeral, hlarge⟩

/-! ## Reading one escape -/

theorem toNat_lt_of_numeral {base : Nat} (hbase : base ≤ 16) {ds : List Char} {n : Nat} (h : Numeral base ds n) :
    ∀ c ∈ ds, c.toNat < 0xD800 := by
  intro c hc
  obtain ⟨d, hd, hw⟩ := h.exists_writes_of_mem hc
  have hd := Nat.lt_of_lt_of_le hd hbase
  have hall : ∀ d < 16, d.digitChar.toNat < 0xD800 ∧ d.digitChar.toUpper.toNat < 0xD800 := by decide
  rcases hw with rfl | rfl
  · exact (hall d hd).1
  · exact (hall d hd).2

theorem units_of_lt {cs : List Char} (h : ∀ c ∈ cs, c.toNat < 0xD800) :
    (∀ u ∈ units cs, isSurrogate u = false) ∧ (units cs).length = cs.length := by
  induction cs with
  | nil => exact ⟨fun u hu => absurd hu List.not_mem_nil, rfl⟩
  | cons c cs ih =>
    obtain ⟨hc, hcs⟩ := List.forall_mem_cons.1 h
    have hunits : units (c :: cs) = UInt16.ofNat c.toNat :: units cs := by
      rw [units, List.flatMap_cons, unitsOfChar_of_lt (by omega)]
      rfl
    have hplain : isSurrogate (UInt16.ofNat c.toNat) = false := by
      rw [isSurrogate_eq_false_iff, toNat_unit_of_lt (by omega)]
      exact .inl hc
    rw [hunits, List.forall_mem_cons, List.length_cons, List.length_cons, (ih hcs).2]
    exact ⟨⟨hplain, (ih hcs).1⟩, rfl⟩

/-- what is read for an escape takes up more of the text than what it denotes, in any place -/
def ReadsLonger (sequence : List Char) (us : List CodeUnit) : Prop :=
  ∀ before after, (decodeUnits (before ++ (us ++ after))).length <
    (decodeUnits (before ++ (escapeUnits sequence ++ after))).length

theorem octal_readsLonger {ds : List Char} {d : Char} {n m : Nat} (hn : n ≤ 0o377) (hlen : ds.length = 2)
    (hm : Numeral 8 (ds ++ [d]) m) (hlarge : 0o377 < m) :
    ReadsLonger ('\\' :: (ds ++ [d])) (UInt16.ofNat n :: units [d]) := by
  have hdigits := toNat_lt_of_numeral (by decide) hm
  obtain ⟨hplain, hlength⟩ := units_of_lt hdigits
  obtain ⟨hplain', hlength'⟩ := units_of_lt fun c hc => hdigits c (List.mem_append_right ds hc)
  have hfirst : isSurrogate (UInt16.ofNat n) = false := by
    rw [isSurrogate_eq_false_iff, toNat_unit_of_lt (by omega)]
    omega
  intro before after
  rw [escapeUnits_of_misread (.octal hm hlarge), List.tail_cons,
    length_decodeUnits_around (List.forall_mem_cons.2 ⟨hfirst, hplain'⟩) (List.cons_ne_nil _ _),
    length_decodeUnits_around hplain (List.ne_nil_of_length_pos (by rw [hlength]; simp)), hlength, List.length_cons,
    hlength', List.length_append, List.length_singleton, hlen]
  omega

theorem surrogate_readsLonger {ds : List Char} {n : Nat} (h : Numeral 16 ds n) (hn : 0xD800 ≤ n ∧ n ≤ 0xDFFF) :
    ReadsLonger ('\\' :: 'u' :: '\x7b' :: (ds ++ ['\x7d'])) (unitsOfCodePoint n) := by
  have hdigits := toNat_lt_of_numeral (Nat.le_refl 16) h
  have hbody : ∀ c ∈ 'u' :: '\x7b' :: (ds ++ ['\x7d']), c.toNat < 0xD800 := by
    intro c hc
    simp only [List.mem_cons, List.mem_append, List.not_mem_nil, or_false] at hc
    rcases hc with rfl | rfl | hc | rfl
    · decide
    · decide
    · exact hdigits c hc
    · decide
  obtain ⟨hplain, hlength⟩ := units_of_lt hbody
  have hunit : unitsOfCodePoint n = [UInt16.ofNat n] := by
    rw [unitsOfCodePoint, if_pos (by omega)]
  intro before after
  have happend := length_decodeUnits_append_le before (UInt16.ofNat n :: after)
  have hcons := length_decodeUnits_cons_le (UInt16.ofNat n) after
  rw [escapeUnits_of_misread (.surrogate h hn), List.tail_cons, hunit, List.singleton_append,
    length_decodeUnits_around hplain (List.ne_nil_of_length_pos (by rw [hlength]; simp)), hlength]
  simp only [List.length_cons, List.length_append]
  omega

/-- an escape is read as what it denotes, or else it is misread and makes the text longer -/
theorem denotes_cases {sequence : List Char} {us : List CodeUnit} (h : Denotes sequence us) :
    (¬ Misread sequence ∧ escapeUnits sequence = us) ∨ (Misread sequence ∧ ReadsLonger sequence us) := by
  cases h with
  | named h => exact .inl ⟨not_misread_single _, escapeUnits_of_escape (.named h)⟩
  | itself h => exact .inl ⟨not_misread_single _, escapeUnits_itself h⟩
  | continuation h =>
    have hunits := units_of_continuation (.mk h)
    rw [Segment.units, String.toList_ofList] at hunits
    refine .inl ⟨?_, hunits⟩
    simp only [lineBreaks, List.mem_cons, List.not_mem_nil, or_false] at h
    rcases h with rfl | rfl | rfl | rfl | rfl <;> exact not_misread_of_head (by decide) (by decide)
  | @octal ds rest n h hne hn hrest hlen hlongest =>
    cases rest with
    | nil =>
      rw [List.append_nil, misread_octal_iff h]
      exact .inl ⟨by omega, escapeUnits_octal h hne hn⟩
    | cons d more =>
      obtain ⟨rfl, htwo, m, hm, hlarge⟩ :=
        octal_left_over h (hrest d List.mem_cons_self) hlen fun m => hlongest d more m rfl
      exact .inr ⟨.octal hm hlarge, octal_readsLonger hn htwo hm hlarge⟩
  | hex h hlen => exact .inl ⟨not_misread_of_head (by decide) fun hx => absurd hx (by decide), escapeUnits_hex h hlen⟩
  | @unit ds n h hlen =>
    refine .inl ⟨not_misread_of_head (by decide) fun _ hbrace => ?_, escapeUnits_unit h hlen⟩
    obtain ⟨rest, rfl⟩ := List.head?_eq_some_iff.1 hbrace
    exact absurd rfl (h.head_ne (Nat.le_refl 16) (by decide))
  | @codePoint ds n h hne hn =>
    by_cases hsurrogate : 0xD800 ≤ n ∧ n ≤ 0xDFFF
    · exact .inr ⟨.surrogate h hsurrogate, surrogate_readsLonger h hsurrogate⟩
    · rw [misread_codePoint_iff h]
      have hnat : (Char.ofNat n).toNat = n := toNat_ofNat_of_range (by omega)
      have hread := escapeUnits_codePoint (hnat.symm ▸ h) hne
      rw [← unitsOfCodePoint_toNat, hnat] at hread
      exact .inl ⟨hsurrogate, hread⟩

/-! ## Reading a literal -/

/-- some escape of the content is misread -/
def HasMisread (content : List Segment) : Prop := ∃ sequence, .escape sequence ∈ content ∧ Misread sequence.toList

theorem hasMisread_cons (s : Segment) (content : List Segment) :
    HasMisread (s :: content) ↔ (∃ sequence, s = .escape sequence ∧ Misread sequence.toList) ∨ HasMisread content := by
  unfold HasMisread
  simp only [List.mem_cons, or_and_right, exists_or]
  simp only [eq_comm]

theorem exists_value {content : List Segment} (h : ∀ sequence, .escape sequence ∈ content → Delimited sequence.toList) :
    ∃ us, Value content us := by
  induction content with
  | nil => exact ⟨_, .nil⟩
  | cons s content ih =>
    obtain ⟨us, hus⟩ := ih fun sequence hmem => h sequence (List.mem_cons_of_mem s hmem)
    cases s with
    | fragment text => exact ⟨_, .fragment text hus⟩
    | escape sequence =>
      obtain ⟨vs, hvs⟩ := (h sequence List.mem_cons_self).exists_denotes
      exact ⟨_, .escape hvs hus⟩

theorem units_of_value {content : List Segment} {us : List CodeUnit} (h : Value content us)
    (hread : ¬ HasMisread content) : content.flatMap Segment.units = us := by
  induction h with
  | nil => rfl
  | fragment text _ ih =>
    rw [hasMisread_cons, not_or] at hread
    rw [List.flatMap_cons, ih hread.2]
    rfl
  | @escape sequence vs content us hs _ ih =>
    rw [hasMisread_cons, not_or] at hread
    rcases denotes_cases hs with ⟨-, hunits⟩ | ⟨hmis, -⟩
    · rw [List.flatMap_cons, ih hread.2, Segment.units, hunits]
    · exact absurd ⟨sequence, rfl, hmis⟩ hread.1

/-- a literal is never read as less than its value, and as more if an escape is misread -/
theorem length_of_value {content : List Segment} {us : List CodeUnit} (h : Value content us) (before : List CodeUnit) :
    (decodeUnits (before ++ us)).length ≤ (decodeUnits (before ++ content.flatMap Segment.units)).length ∧
    (HasMisread content →
      (decodeUnits (before ++ us)).length < (decodeUnits (before ++ content.flatMap Segment.units)).length) := by
  induction h generalizing before with
  | nil => exact ⟨Nat.le_refl _, fun ⟨_, hmem, _⟩ => absurd hmem List.not_mem_nil⟩
  | @fragment content us text _ ih =>
    have ih := ih (before ++ units text.toList)
    rw [List.append_assoc, List.append_assoc] at ih
    rw [List.flatMap_cons, hasMisread_cons]
    exact ⟨ih.1, fun hmis => ih.2 (hmis.resolve_left fun ⟨_, hs, _⟩ => nomatch hs)⟩
  | @escape sequence vs content us hs _ ih =>
    have ih := ih (before ++ vs)
    rw [List.append_assoc, List.append_assoc] at ih
    rw [List.flatMap_cons, hasMisread_cons, Segment.units]
    rcases denotes_cases hs with ⟨hread, hunits⟩ | ⟨hmis, hlonger⟩
    · rw [hunits]
      refine ⟨ih.1, fun hmis => ih.2 (hmis.resolve_left ?_)⟩
      rintro ⟨_, hsequence, hmis⟩
      cases hsequence
      exact hread hmis
    · -- the misread escape is longer in front of whatever follows
      have hlt := Nat.lt_of_le_of_lt ih.1 (hlonger before (content.flatMap Segment.units))
      exact ⟨Nat.le_of_lt hlt, fun _ => hlt⟩

theorem decodeSegments_toList (content : List Segment) :
    (decodeSegments content).toList = decodeUnits (content.flatMap Segment.units) := by
  rw [decodeSegments, String.toList_ofList]

/-- **String values.** Every content of a literal has a value, and the literal is read as the lossy decoding of its value
exactly if no escape is misread; a misread escape is read as the text behind its backslash. -/
theorem decode_value_iff (content : List Segment)
    (h : ∀ sequence, .escape sequence ∈ content → Delimited sequence.toList) :
    (∃ us, Value content us) ∧
    (∀ us, Value content us → (Decodes us (decodeSegments content).toList ↔ ¬ HasMisread content)) ∧
    (∀ before sequence after, content = before ++ .escape sequence :: after → Misread sequence.toList →
      decodeSegments content =
        decodeSegments (before ++ .fragment (String.ofList sequence.toList.tail) :: after)) ∧
    ∀ source (t : Tree), t.kind = .string → Lowering.segments source t = content →
      Lowering.literalValue source t = .string (decodeSegments content) := by
  refine ⟨exists_value h, fun us hus => ?_, ?_, fun source t hkind hsegments => ?_⟩
  · rw [decodes_iff, decodeSegments_toList]
    constructor
    · intro hdecodes hmis
      have hlt := (length_of_value hus []).2 hmis
      rw [List.nil_append, List.nil_append, hdecodes] at hlt
      exact Nat.lt_irrefl _ hlt
    · intro hread
      rw [units_of_value hus hread]
  · rintro before sequence after rfl hmis
    have hunits : (Segment.escape sequence).units = (Segment.fragment (String.ofList sequence.toList.tail)).units := by
      rw [Segment.units, Segment.units, String.toList_ofList, escapeUnits_of_misread hmis]
    rw [decodeSegments, decodeSegments, List.flatMap_append, List.flatMap_append, List.flatMap_cons, List.flatMap_cons,
      hunits]
  · rw [Lowering.literalValue, hkind]
    simp only [hsegments]

/-- an octal escape of a number above 0o377 -/
def octalAbove : List Segment := [.escape "\\400"]

/-- a pair of which one half stands in braces -/
def halfInBraces : List Segment := [.escape "\\uD83D", .escape "\\u\x7bDE00\x7d"]

theorem numeral_octalAbove : Numeral 8 ['4', '0'] 0o40 ∧ Numeral 8 ['4', '0', '0'] 0o400 := by
  have h : Numeral 8 ['4', '0'] 0o40 :=
    (Numeral.nil.snoc (d := 4) (by decide) (by decide)).snoc (d := 0) (by decide) (by decide)
  exact ⟨h, h.snoc (d := 0) (by decide) (by decide)⟩

theorem numeral_halfInBraces : Numeral 16 ['D', '8', '3', 'D'] 0xD83D ∧ Numeral 16 ['D', 'E', '0', '0'] 0xDE00 :=
  ⟨(((Numeral.nil.snoc (d := 13) (by decide) (by decide)).snoc (d := 8) (by decide) (by decide)).snoc (d := 3)
      (by decide) (by decide)).snoc (d := 13) (by decide) (by decide),
    (((Numeral.nil.snoc (d := 13) (by decide) (by decide)).snoc (d := 14) (by decide) (by decide)).snoc (d := 0)
      (by decide) (by decide)).snoc (d := 0) (by decide) (by decide)⟩

theorem value_octalAbove : Value octalAbove [0x20, 0x30] := by
  have hdenotes : Denotes "\\400".toList [0x20, 0x30] := by
    refine @Denotes.octal ['4', '0'] ['0'] 0o40 numeral_octalAbove.1 (by decide) (by decide) (by simp [octalDigits])
      (by decide) ?_
    intro d more m hrest hm
    cases hrest
    rw [hm.unique (by decide) numeral_octalAbove.2]
    decide
  exact .escape hdenotes .nil

theorem value_halfInBraces : Value halfInBraces [0xD83D, 0xDE00] := by
  have hhigh : Denotes "\\uD83D".toList [0xD83D] := .unit numeral_halfInBraces.1 rfl
  have hlow : Denotes "\\u\x7bDE00\x7d".toList [0xDE00] := .codePoint numeral_halfInBraces.2 (by decide) (by decide)
  exact .escape hhigh (.escape hlow .nil)

/-- a number above 0o377 and half a pair in braces are both read as their own text: the value of the one is a blank and
a zero, and that of the other is one character -/
theorem decode_value_misread :
    Value octalAbove [0x20, 0x30] ∧ decodeSegments octalAbove = "400" ∧
    ¬ Decodes [0x20, 0x30] (decodeSegments octalAbove).toList ∧
    Value halfInBraces [0xD83D, 0xDE00] ∧ decodeSegments halfInBraces = "\uFFFDu\x7bDE00\x7d" ∧
    ¬ Decodes [0xD83D, 0xDE00] (decodeSegments halfInBraces).toList ∧
    Decodes [0xD83D, 0xDE00] ['😀'] := by
  have hoctal : ∀ sequence, .escape sequence ∈ octalAbove → Delimited sequence.toList := by
    intro sequence hmem
    cases List.mem_singleton.1 hmem
    exact @Delimited.octal ['4', '0', '0'] 0o400 numeral_octalAbove.2 (by decide) (by decide)
  have hhalf : ∀ sequence, .escape sequence ∈ halfInBraces → Delimited sequence.toList := by
    intro sequence hmem
    rcases List.mem_cons.1 hmem with hmem | hmem
    · cases hmem
      exact .unit numeral_halfInBraces.1 rfl
    · cases List.mem_singleton.1 hmem
      exact .codePoint numeral_halfInBraces.2 (by decide) (by decide)
  have hmisread : HasMisread octalAbove := ⟨_, List.mem_singleton.2 rfl, .octal numeral_octalAbove.2 (by decide)⟩
  have hmisread' : HasMisread halfInBraces :=
    ⟨_, List.mem_cons_of_mem _ (List.mem_singleton.2 rfl), .surrogate numeral_halfInBraces.2 (by decide)⟩
  refine ⟨value_octalAbove, by decide, fun hdecodes => ?_, value_halfInBraces, by decide, fun hdecodes => ?_, ?_⟩
  · exact ((decode_value_iff octalAbove hoctal).2.1 _ value_octalAbove).1 hdecodes hmisread
  · exact ((decode_value_iff halfInBraces hhalf).2.1 _ value_halfInBraces).1 hdecodes hmisread'
  · exact (decodes_iff _ _).2 (by decide)

end ScriptTriage.Text

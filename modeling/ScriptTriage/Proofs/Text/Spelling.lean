import ScriptTriage.Lowering
import ScriptTriage.Proofs.Candidate
import ScriptTriage.Proofs.Number.Numeral
import ScriptTriage.Proofs.Text.Utf16

/-
Spellings of a text in a string literal.

A text can be written in many ways: each character verbatim inside a fragment, or as an escape of its own; and a
backslash in front of a line break, which stands for nothing, may come anywhere. `Spelling` says which segments spell
which text, without reading them; `Escape` says it for one character:
- `named`: the letter for a control character;
- `itself`: the character behind a backslash, where that has no other meaning;
- `hex`, `octal`: its number in two hexadecimal or up to three octal digits;
- `unit`: its number in four hexadecimal digits; above U+FFFF the two halves of its surrogate pair stand in two such
  escapes (`Spelling.pair`), with line breaks between them if one likes;
- `codePoint`: its number in braces, in any number of digits.

- `units_of_spelling`: all spellings of a text stand for the code units of the text.
- `decode_spelling`: so they all have the text as their value, and the same candidate.
-/

namespace ScriptTriage.Text

open ScriptTriage.Number

/-! ## Spellings -/

/-- the characters with a letter of their own, and their letters -/
def namedEscapes : List (Char × Char) :=
  [('\n', 'n'), ('\t', 't'), ('\r', 'r'), ('\x08', 'b'), ('\x0C', 'f'), ('\x0B', 'v')]

def octalDigits : List Char := ['0', '1', '2', '3', '4', '5', '6', '7']

/-- the characters that start another kind of escape, or a line break -/
def escapeStarts : List Char :=
  ['n', 't', 'r', 'b', 'f', 'v', 'x', 'u'] ++ octalDigits ++ ['\n', '\r', '\u2028', '\u2029']

def lineBreaks : List (List Char) := [['\n'], ['\r'], ['\r', '\n'], ['\u2028'], ['\u2029']]

/-- an escape sequence for a character -/
inductive Escape (c : Char) : List Char → Prop where
  | named {letter} (h : (c, letter) ∈ namedEscapes) : Escape c ['\\', letter]
  | itself (h : c ∉ escapeStarts) : Escape c ['\\', c]
  | hex {ds} (h : Numeral 16 ds c.toNat) (hlen : ds.length = 2) : Escape c ('\\' :: 'x' :: ds)
  | octal {ds} (h : Numeral 8 ds c.toNat) (hpos : 1 ≤ ds.length) (hlen : ds.length ≤ 3) (hc : c.toNat ≤ 0xFF) :
    Escape c ('\\' :: ds)
  | unit {ds} (h : Numeral 16 ds c.toNat) (hlen : ds.length = 4) : Escape c ('\\' :: 'u' :: ds)
  | codePoint {ds} (h : Numeral 16 ds c.toNat) (hne : ds ≠ []) : Escape c ('\\' :: 'u' :: '\x7b' :: ds ++ ['\x7d'])

/-- a backslash in front of a line break -/
inductive Continuation : Segment → Prop where
  | mk {lineBreak} (h : lineBreak ∈ lineBreaks) : Continuation (.escape (String.ofList ('\\' :: lineBreak)))

/-- two numbers that make a surrogate pair for a character -/
structure SurrogatePair (c : Char) (high low : Nat) : Prop where
  high_range : 0xD800 ≤ high ∧ high < 0xDC00
  low_range : 0xDC00 ≤ low ∧ low < 0xE000
  joined : c.toNat = 0x10000 + (high - 0xD800) * 0x400 + (low - 0xDC00)

/-- the segments spell the text -/
inductive Spelling : List Char → List Segment → Prop where
  | nil : Spelling [] []
  | fragment {cs segments} (text : String) (h : Spelling cs segments) :
    Spelling (text.toList ++ cs) (.fragment text :: segments)
  | escape {c cs sequence segments} (he : Escape c sequence) (h : Spelling cs segments) :
    Spelling (c :: cs) (.escape (String.ofList sequence) :: segments)
  | pair {c high low highDigits lowDigits between cs segments} (hpair : SurrogatePair c high low)
    (hhigh : Numeral 16 highDigits high) (hhighLen : highDigits.length = 4) (hlow : Numeral 16 lowDigits low)
    (hlowLen : lowDigits.length = 4) (hbetween : ∀ s ∈ between, Continuation s) (h : Spelling cs segments) :
    Spelling (c :: cs) (.escape (String.ofList ('\\' :: 'u' :: highDigits)) ::
      (between ++ .escape (String.ofList ('\\' :: 'u' :: lowDigits)) :: segments))
  | continuation {s cs segments} (hs : Continuation s) (h : Spelling cs segments) : Spelling cs (s :: segments)

/-! ## Reading one escape -/

theorem isHexDigit_of_writes {c : Char} {d : Nat} (hd : d < 16) (h : Writes c d) : isHexDigit c = true := by
  have hall : ∀ d < 16, isHexDigit d.digitChar = true ∧ isHexDigit d.digitChar.toUpper = true := by decide
  rcases h with rfl | rfl
  · exact (hall d hd).1
  · exact (hall d hd).2

theorem hexUnit_of_numeral {width n : Nat} {ds : List Char} (h : Numeral 16 ds n) (hlen : ds.length = width)
    (hpos : 0 < width) (hn : n ≤ 0xFFFF) : hexUnit width ds = some (UInt16.ofNat n) := by
  have hne : ds ≠ [] := by
    rintro rfl
    simp at hlen; omega
  have hall : ds.all isHexDigit = true := by
    rw [List.all_eq_true]
    intro c hc
    obtain ⟨d, hd, hw⟩ := h.exists_writes_of_mem hc
    exact isHexDigit_of_writes hd hw
  simp [hexUnit, hlen, hall, parseBounded_of_numeral (Nat.le_refl 16) h hne hn]

theorem charOfNat?_toNat (c : Char) : charOfNat? c.toNat = some c := by
  have hrange := toNat_char_range c
  simp [charOfNat?, hrange]

/-- four digits behind `\u` are one unit, a half of a pair included -/
theorem escapeUnits_unit {ds : List Char} {n : Nat} (h : Numeral 16 ds n) (hlen : ds.length = 4) :
    escapeUnits ('\\' :: 'u' :: ds) = [UInt16.ofNat n] := by
  have hlt : n < 0x10000 := h.lt_pow hlen
  have hunit := hexUnit_of_numeral h hlen (by decide) (by omega)
  have hbraced : braced? ds = none := by
    unfold braced?
    split
    · exact absurd rfl (h.head_ne (Nat.le_refl 16) (by decide))
    · rfl
  simp [escapeUnits, escapeBodyUnits, unicodeUnits, hbraced, hunit]

theorem escapeUnits_hex {ds : List Char} {n : Nat} (h : Numeral 16 ds n) (hlen : ds.length = 2) :
    escapeUnits ('\\' :: 'x' :: ds) = [UInt16.ofNat n] := by
  have hlt : n < 0x100 := h.lt_pow hlen
  have hunit := hexUnit_of_numeral h hlen (by decide) (by omega)
  simp [escapeUnits, escapeBodyUnits, hunit]

theorem mem_octalDigits_of_range {c : Char} (h : '0' ≤ c ∧ c ≤ '7') : c ∈ octalDigits := by
  have hlow : 48 ≤ c.toNat := h.1
  have hhigh : c.toNat ≤ 55 := h.2
  rw [← Char.ofNat_toNat c]
  generalize c.toNat = n at hlow hhigh
  have hall : ∀ n < 56, 48 ≤ n → Char.ofNat n ∈ octalDigits := by decide
  exact hall n (by omega) hlow

theorem mem_octalDigits_of_writes {c : Char} {d : Nat} (hd : d < 8) (h : Writes c d) : c ∈ octalDigits := by
  have hall : ∀ d < 8, d.digitChar ∈ octalDigits ∧ d.digitChar.toUpper ∈ octalDigits := by decide
  rcases h with rfl | rfl
  · exact (hall d hd).1
  · exact (hall d hd).2

/-- digits are one unit, or else their own text -/
theorem escapeUnits_digits {ds : List Char} {n : Nat} (h : Numeral 8 ds n) (hne : ds ≠ []) :
    escapeUnits ('\\' :: ds) = ((parseBounded 8 0xFF ds).map fun n => [UInt16.ofNat n]).getD (units ds) := by
  cases ds with
  | nil => exact absurd rfl hne
  | cons first rest =>
    obtain ⟨d, hd, hw⟩ := h.exists_writes_of_mem List.mem_cons_self
    have hfirst := mem_octalDigits_of_writes hd hw
    simp only [octalDigits, List.mem_cons, List.not_mem_nil, or_false] at hfirst
    rcases hfirst with rfl | rfl | rfl | rfl | rfl | rfl | rfl | rfl <;> simp only [escapeUnits, escapeBodyUnits] <;>
      cases parseBounded 8 0xFF _ <;> rfl

theorem escapeUnits_octal {ds : List Char} {n : Nat} (h : Numeral 8 ds n) (hne : ds ≠ []) (hn : n ≤ 0xFF) :
    escapeUnits ('\\' :: ds) = [UInt16.ofNat n] := by
  rw [escapeUnits_digits h hne, parseBounded_of_numeral (by decide) h hne hn]
  rfl

theorem escapeUnits_codePoint {ds : List Char} {c : Char} (h : Numeral 16 ds c.toNat) (hne : ds ≠ []) :
    escapeUnits ('\\' :: 'u' :: '\x7b' :: ds ++ ['\x7d']) = unitsOfChar c := by
  have hrange := toNat_char_range c
  have hnumber : parseBounded 16 0xFFFFFFFF ds = some c.toNat :=
    parseBounded_of_numeral (Nat.le_refl 16) h hne (by omega)
  have hbraced : braced? ('\x7b' :: (ds ++ ['\x7d'])) = some ds := by simp [braced?]
  simp [escapeUnits, escapeBodyUnits, unicodeUnits, hbraced, hnumber, charOfNat?_toNat]

theorem escapeUnits_itself {c : Char} (h : c ∉ escapeStarts) : escapeUnits ['\\', c] = unitsOfChar c := by
  have hoctal : ¬ ('0' ≤ c ∧ c ≤ '7') := by
    intro hrange
    have hmem := mem_octalDigits_of_range hrange
    exact h (List.mem_append_left _ (List.mem_append_right _ hmem))
  simp only [escapeStarts, octalDigits, List.mem_append, List.mem_cons, List.not_mem_nil, or_false, not_or] at h
  simp [escapeUnits, escapeBodyUnits, isLineTerminator, h, hoctal]

theorem escapeUnits_of_escape {c : Char} {sequence : List Char} (h : Escape c sequence) :
    escapeUnits sequence = unitsOfChar c := by
  cases h with
  | named h =>
    simp only [namedEscapes, List.mem_cons, Prod.mk.injEq, List.not_mem_nil, or_false] at h
    rcases h with ⟨rfl, rfl⟩ | ⟨rfl, rfl⟩ | ⟨rfl, rfl⟩ | ⟨rfl, rfl⟩ | ⟨rfl, rfl⟩ | ⟨rfl, rfl⟩ <;> rfl
  | itself h => exact escapeUnits_itself h
  | hex h hlen =>
    have hlt : c.toNat < 0x100 := h.lt_pow hlen
    rw [escapeUnits_hex h hlen, unitsOfChar_of_lt (by omega)]
  | octal h hpos hlen hc =>
    rw [escapeUnits_octal h (List.ne_nil_of_length_pos hpos) hc, unitsOfChar_of_lt (by omega)]
  | unit h hlen =>
    have hlt : c.toNat < 0x10000 := h.lt_pow hlen
    rw [escapeUnits_unit h hlen, unitsOfChar_of_lt hlt]
  | codePoint h hne => exact escapeUnits_codePoint h hne

/-! ## Reading a spelling -/

theorem units_of_continuation {s : Segment} (h : Continuation s) : s.units = [] := by
  obtain ⟨h⟩ := h
  rw [Segment.units, String.toList_ofList]
  simp only [lineBreaks, List.mem_cons, List.not_mem_nil, or_false] at h
  rcases h with rfl | rfl | rfl | rfl | rfl <;> rfl

theorem SurrogatePair.unitsOfChar_eq {c : Char} {high low : Nat} (h : SurrogatePair c high low) :
    unitsOfChar c = [UInt16.ofNat high, UInt16.ofNat low] := by
  obtain ⟨⟨hhigh, hhigh'⟩, ⟨hlow, hlow'⟩, hjoined⟩ := h
  have hquot : 0xD800 + (c.toNat - 0x10000) / 0x400 = high := by omega
  have hrem : 0xDC00 + (c.toNat - 0x10000) % 0x400 = low := by omega
  rw [unitsOfChar_of_le (by omega), hquot, hrem]

theorem flatMap_units_of_continuations {segments : List Segment} (h : ∀ s ∈ segments, Continuation s) :
    segments.flatMap Segment.units = [] :=
  List.flatMap_eq_nil_iff.2 fun s hs => units_of_continuation (h s hs)

/-- every spelling of a text stands for the code units of the text -/
theorem units_of_spelling {cs : List Char} {segments : List Segment} (h : Spelling cs segments) :
    segments.flatMap Segment.units = units cs := by
  induction h with
  | nil => rfl
  | fragment text _ ih => simp [Segment.units, units, ih]
  | escape he _ ih => simp [Segment.units, units, ih, escapeUnits_of_escape he]
  | pair hpair hhigh hhighLen hlow hlowLen hbetween _ ih =>
    simp [Segment.units, units, ih, escapeUnits_unit hhigh hhighLen, escapeUnits_unit hlow hlowLen,
      flatMap_units_of_continuations hbetween, hpair.unitsOfChar_eq]
  | continuation hs _ ih => rw [List.flatMap_cons, units_of_continuation hs, List.nil_append, ih]

theorem decodeSegments_of_spelling {s : String} {segments : List Segment} (h : Spelling s.toList segments) :
    decodeSegments segments = s := by
  rw [decodeSegments, units_of_spelling h, decodeUnits_units, String.ofList_toList]

/-- **Payload fidelity.** Every spelling of a text in a string literal has the text as its value, so with every least
length that the text reaches its candidate is the text's own: one byte for each character if all of them fit, the text
otherwise. Two spellings of one text never differ in their candidates. -/
theorem decode_spelling (s : String) (segments : List Segment) (h : Spelling s.toList segments) :
    decodeSegments segments = s ∧
    (∀ source (t : Tree), t.kind = .string → Lowering.segments source t = segments →
      Lowering.literalValue source t = .string s) ∧
    (∀ least ≤ s.length,
      ((∀ c ∈ s.toList, c.toNat ≤ 0xFF) → Candidate.extract? (decodeSegments segments) least =
        some (.bytes (s.toList.map fun c => UInt8.ofNat c.toNat))) ∧
      ((∃ c ∈ s.toList, 0xFF < c.toNat) → Candidate.extract? (decodeSegments segments) least = some (.text s))) ∧
    ∀ segments', Spelling s.toList segments' → ∀ least,
      Candidate.extract? (decodeSegments segments') least = Candidate.extract? (decodeSegments segments) least := by
  have hvalue := decodeSegments_of_spelling h
  refine ⟨hvalue, fun source t hkind hsegments => ?_, fun least hleast => ?_, fun segments' h' least => ?_⟩
  · rw [Lowering.literalValue, hkind]
    simp only [hsegments, hvalue]
  · rw [hvalue, Candidate.extract?_of_le hleast]
    exact ⟨fun hfits => by rw [Candidate.ofString_of_fits hfits],
      fun hexceeds => by rw [Candidate.ofString_of_exceeds hexceeds]⟩
  · rw [hvalue, decodeSegments_of_spelling h']

/-- a pair whose halves stand on two lines, beside a verbatim letter, a named escape and an upper-case hexadecimal one -/
def mixedSpelling : List Segment :=
  [.fragment "a", .escape "\\n", .escape "\\uD83d", .escape "\\\r\n", .escape "\\uDe00", .escape "\\xE9"]

theorem decode_mixedSpelling :
    Spelling "a\n😀é".toList mixedSpelling ∧ decodeSegments mixedSpelling = "a\n😀é" ∧
      Candidate.extract? (decodeSegments mixedSpelling) 4 = some (.text "a\n😀é") := by
  have hhigh : Numeral 16 ['D', '8', '3', 'd'] 0xD83D :=
    (((Numeral.nil.snoc (d := 13) (by decide) (by decide)).snoc (d := 8) (by decide) (by decide)).snoc (d := 3)
      (by decide) (by decide)).snoc (d := 13) (by decide) (by decide)
  have hlow : Numeral 16 ['D', 'e', '0', '0'] 0xDE00 :=
    (((Numeral.nil.snoc (d := 13) (by decide) (by decide)).snoc (d := 14) (by decide) (by decide)).snoc (d := 0)
      (by decide) (by decide)).snoc (d := 0) (by decide) (by decide)
  have hlast : Numeral 16 ['E', '9'] 'é'.toNat :=
    (Numeral.nil.snoc (d := 14) (by decide) (by decide)).snoc (d := 9) (by decide) (by decide)
  have hbetween : ∀ s ∈ [Segment.escape "\\\r\n"], Continuation s := by
    intro s hs
    rw [List.mem_singleton.1 hs]
    exact .mk (show ['\r', '\n'] ∈ lineBreaks by decide)
  have hpair : Spelling "😀é".toList
      [.escape "\\uD83d", .escape "\\\r\n", .escape "\\uDe00", .escape "\\xE9"] :=
    .pair ⟨by decide, by decide, by decide⟩ hhigh rfl hlow rfl hbetween (.escape (.hex hlast rfl) .nil)
  have hspelling : Spelling "a\n😀é".toList mixedSpelling := .fragment "a" (.escape (.named (by decide)) hpair)
  obtain ⟨hvalue, _, hcandidate, _⟩ := decode_spelling _ _ hspelling
  exact ⟨hspelling, hvalue, (hcandidate 4 (by decide)).2 ⟨'😀', by decide, by decide⟩⟩

end ScriptTriage.Text

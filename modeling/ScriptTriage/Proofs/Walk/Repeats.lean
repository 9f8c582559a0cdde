import ScriptTriage.Proofs.Walk.Threshold

/-
Repeats of candidates. Three lengths of a string meet in a candidate: its bytes in UTF-8, which are counted first, its
characters, which decide, and the bytes that the candidate holds. They agree where it matters, and a candidate keeps all
of its string. So it makes no difference whether repeats are dropped among candidates or among the strings that they
come from.

- `toList_ofList_extract?`: a set of candidates is the set of the long strings behind them, in the same order.
- `candidates_program_eq_map`: the candidates that a walk lists are the different long strings that it inspects.
- `extraction_faithful`: both, with what extraction does to one string.
-/

namespace ScriptTriage

namespace Candidate

theorem filterMap_extract? (texts : List String) (least : Nat) :
    texts.filterMap (extract? · least) = (texts.filter fun s => least ≤ s.length).map ofString := by
  induction texts with
  | nil => rfl
  | cons s texts ih =>
    rw [List.filterMap_cons, List.filter_cons, ih, extract?_eq]
    by_cases h : least ≤ s.length
    · simp [h]
    · simp [h]

/-- what extraction puts into a set is the set of the long strings -/
theorem toList_ofList_extract? (texts : List String) (least : Nat) :
    (OrderedSet.ofList (texts.filterMap (extract? · least))).toList =
      (OrderedSet.ofList (texts.filter fun s => least ≤ s.length)).toList.map ofString := by
  rw [filterMap_extract?, OrderedSet.toList_ofList, OrderedSet.toList_ofList,
    OrderedSet.eraseDups_map fun _ _ => ofString_inj]

theorem extract?_eq_some_iff (s : String) (least : Nat) :
    extract? s least = some (ofString s) ↔ least ≤ s.length := by
  rw [extract?_eq]
  split
  · exact iff_of_true rfl ‹_›
  · exact iff_of_false nofun ‹_›

theorem extract?_eq_none_iff (s : String) (least : Nat) : extract? s least = none ↔ s.length < least := by
  rw [extract?_eq, ← Nat.not_le]
  split
  · exact iff_of_false nofun (not_not_intro ‹_›)
  · exact iff_of_true rfl ‹_›

end Candidate

namespace Walk

variable {σ : Type}

theorem candidates_program_eq_map (sink : Sink σ) (state : σ) (body : List Node) (least : Nat) :
    (program ⟨least, sink⟩ body state).1.candidates =
      ((Trace.inspectedAll body).eraseDups.filter fun s => least ≤ s.length).map Candidate.ofString := by
  rw [candidates_program, OrderedSet.eraseDups_map fun _ _ => Candidate.ofString_inj, List.filter_map]
  congr 2
  funext s
  rw [Function.comp_apply, Candidate.length_ofString]

end Walk

/-- **Extraction is exact and faithful.** A string is long enough exactly if it has `least` characters, whatever its
bytes say first; then extraction gives its candidate, and otherwise nothing. The candidate is made of bytes exactly if no
character lies above U+00FF, and the bytes are the code points in order; otherwise it is the string itself. It is as long
as the string, and no other string has it. So dropping repeats among candidates, in any set that extraction fills and in
the findings of every walk, is dropping repeats among the strings. -/
theorem Candidate.extraction_faithful (s t : String) (least : Nat) :
    (isLongEnough s least = true ↔ least ≤ s.length) ∧
    (extract? s least = some (ofString s) ↔ least ≤ s.length) ∧
    (extract? s least = none ↔ s.length < least) ∧
    ((∃ data, ofString s = .bytes data) ↔ ∀ c ∈ s.toList, c.toNat ≤ 0xFF) ∧
    (∀ data, ofString s = .bytes data ↔ data.map UInt8.toNat = s.toList.map Char.toNat) ∧
    ((∃ c ∈ s.toList, 0xFF < c.toNat) → ofString s = .text s) ∧
    (ofString s).length = s.length ∧
    (ofString s = ofString t ↔ s = t) ∧
    (∀ texts : List String, (OrderedSet.ofList (texts.filterMap (extract? · least))).toList =
      (OrderedSet.ofList (texts.filter fun s => least ≤ s.length)).toList.map ofString) ∧
    ∀ {σ : Type} (sink : Sink σ) (state : σ) (body : List Node),
      (Walk.program ⟨least, sink⟩ body state).1.candidates =
        ((Trace.inspectedAll body).eraseDups.filter fun s => least ≤ s.length).map ofString :=
  ⟨isLongEnough_iff s least, extract?_eq_some_iff s least, extract?_eq_none_iff s least, exists_bytes_iff s,
    ofString_eq_bytes_iff s, ofString_of_exceeds, length_ofString s, ofString_inj,
    fun texts => toList_ofList_extract? texts least,
    fun sink state body => Walk.candidates_program_eq_map sink state body least⟩

/-- four characters in seven bytes: too short for five, though there are bytes enough -/
example : (Candidate.extract? "A\u007FÿĀ" 5, Candidate.extract? "A\u007FÿĀ" 4,
    Candidate.extract? "A\u007Fÿ" 3) =
      (none, some (.text "A\u007FÿĀ"), some (.bytes [0x41, 0x7F, 0xFF])) := by
  decide +kernel

end ScriptTriage

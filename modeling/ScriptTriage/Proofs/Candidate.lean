import ScriptTriage.Candidate

/-
Candidates. A character takes at least one byte, so counting bytes first never changes which strings are long enough:
`isLongEnough_iff` counts characters alone. A candidate is as long as its string, be it kept as bytes or as text
(`length_ofString`), and holds all of it: reading every byte as a character gives the string back (`toText_ofString`), so
two strings with the same candidate are the same string (`ofString_inj`).
-/

namespace ScriptTriage.Candidate

theorem length_le_utf8ByteSize_ofList (cs : List Char) : cs.length ≤ (String.ofList cs).utf8ByteSize := by
  induction cs with
  | nil => exact Nat.zero_le _
  | cons c cs ih =>
    have hpos := c.utf8Size_pos
    have hsplit : String.ofList (c :: cs) = String.singleton c ++ String.ofList cs := by
      rw [← String.toList_inj]
      simp
    rw [hsplit, String.utf8ByteSize_append, String.utf8ByteSize_singleton, List.length_cons]
    omega

theorem length_le_utf8ByteSize (s : String) : s.length ≤ s.utf8ByteSize := by
  have h := length_le_utf8ByteSize_ofList s.toList
  rwa [String.ofList_toList, String.length_toList] at h

theorem isLongEnough_iff (s : String) (least : Nat) : isLongEnough s least = true ↔ least ≤ s.length := by
  have hsize := length_le_utf8ByteSize s
  unfold isLongEnough
  split
  · rename_i hshort
    simp only [Bool.false_eq_true, false_iff]
    omega
  · exact decide_eq_true_iff

theorem extract?_eq (s : String) (least : Nat) :
    extract? s least = if least ≤ s.length then some (ofString s) else none := by
  unfold extract?
  by_cases h : least ≤ s.length
  · rw [if_pos h, if_pos ((isLongEnough_iff s least).2 h)]
  · rw [if_neg h, if_neg (mt (isLongEnough_iff s least).1 h)]

theorem length_ofString (s : String) : (ofString s).length = s.length := by
  unfold ofString
  split
  · rw [length, List.length_map, String.length_toList]
  · rfl

theorem extract?_of_le {s : String} {least : Nat} (h : least ≤ s.length) : extract? s least = some (ofString s) := by
  simp [extract?, (isLongEnough_iff s least).2 h]

theorem ofString_of_fits {s : String} (h : ∀ c ∈ s.toList, c.toNat ≤ 0xFF) :
    ofString s = .bytes (s.toList.map fun c => UInt8.ofNat c.toNat) := by
  have hall : s.toList.all fitsByte = true := List.all_eq_true.2 fun c hc => decide_eq_true (h c hc)
  rw [ofString, if_pos hall]

theorem ofString_of_exceeds {s : String} (h : ∃ c ∈ s.toList, 0xFF < c.toNat) : ofString s = .text s := by
  obtain ⟨c, hc, hlarge⟩ := h
  have hall : ¬ s.toList.all fitsByte = true := by
    intro hall
    have hfits : c.toNat ≤ 0xFF := of_decide_eq_true (List.all_eq_true.1 hall c hc)
    omega
  rw [ofString, if_neg hall]

/-- the string in a candidate, every byte being a character -/
def toText : Candidate → String
  | .bytes data => String.ofList (data.map fun b => Char.ofNat b.toNat)
  | .text value => value

theorem ofNat_toNat_ofNat {c : Char} (h : c.toNat ≤ 0xFF) : Char.ofNat (UInt8.ofNat c.toNat).toNat = c := by
  have hbyte : (UInt8.ofNat c.toNat).toNat = c.toNat := by
    rw [UInt8.toNat_ofNat']
    exact Nat.mod_eq_of_lt (Nat.lt_succ_of_le h)
  rw [hbyte, Char.ofNat_toNat]

theorem fits_or_exceeds (s : String) : (∀ c ∈ s.toList, c.toNat ≤ 0xFF) ∨ ∃ c ∈ s.toList, 0xFF < c.toNat := by
  by_cases h : ∀ c ∈ s.toList, c.toNat ≤ 0xFF
  · exact .inl h
  · simp only [Classical.not_forall, Nat.not_le] at h
    obtain ⟨c, hc, hlarge⟩ := h
    exact .inr ⟨c, hc, hlarge⟩

theorem toText_ofString (s : String) : (ofString s).toText = s := by
  rcases fits_or_exceeds s with h | h
  · have hback : s.toList.map (fun c => Char.ofNat (UInt8.ofNat c.toNat).toNat) = s.toList :=
      (List.map_congr_left fun c hc => ofNat_toNat_ofNat (h c hc)).trans (List.map_id' _)
    rw [ofString_of_fits h, toText, List.map_map]
    exact (congrArg String.ofList hback).trans String.ofList_toList
  · rw [ofString_of_exceeds h, toText]

theorem ofString_inj {s t : String} : ofString s = ofString t ↔ s = t := by
  constructor
  · intro h
    rw [← toText_ofString s, h, toText_ofString]
  · rintro rfl
    rfl

/-- the bytes of a string are its code points in order -/
theorem ofString_eq_bytes_iff (s : String) (data : List UInt8) :
    ofString s = .bytes data ↔ data.map UInt8.toNat = s.toList.map Char.toNat := by
  constructor
  · intro h
    rcases fits_or_exceeds s with hfits | hexceeds
    · rw [ofString_of_fits hfits, Candidate.bytes.injEq] at h
      subst h
      rw [List.map_map]
      refine List.map_congr_left fun c hc => ?_
      rw [Function.comp_apply, UInt8.toNat_ofNat']
      exact Nat.mod_eq_of_lt (Nat.lt_succ_of_le (hfits c hc))
    · rw [ofString_of_exceeds hexceeds] at h
      cases h
  · intro h
    have hfits : ∀ c ∈ s.toList, c.toNat ≤ 0xFF := by
      intro c hc
      have hmem : c.toNat ∈ data.map UInt8.toNat := h ▸ List.mem_map_of_mem hc
      obtain ⟨b, -, hb⟩ := List.mem_map.1 hmem
      exact hb ▸ Nat.le_of_lt_succ b.toNat_lt
    have hdata : s.toList.map (fun c => UInt8.ofNat c.toNat) = data := by
      calc s.toList.map (fun c => UInt8.ofNat c.toNat)
          = (s.toList.map Char.toNat).map UInt8.ofNat := by rw [List.map_map]; rfl
        _ = (data.map UInt8.toNat).map UInt8.ofNat := by rw [h]
        _ = data := by simp [Function.comp_def]
    rw [ofString_of_fits hfits, hdata]

theorem exists_bytes_iff (s : String) : (∃ data, ofString s = .bytes data) ↔ ∀ c ∈ s.toList, c.toNat ≤ 0xFF := by
  constructor
  · rintro ⟨data, hdata⟩
    refine (fits_or_exceeds s).resolve_right fun hexceeds => ?_
    rw [ofString_of_exceeds hexceeds] at hdata
    cases hdata
  · exact fun h => ⟨_, ofString_of_fits h⟩

end ScriptTriage.Candidate

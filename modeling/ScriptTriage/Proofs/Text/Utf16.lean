import Mathlib.Tactic.Push
import ScriptTriage.Text.Utf16

/-
Code units and characters. Encoding a text and decoding the units gives the text back (`decodeUnits_units`), whatever
units follow (`decodeUnits_unitsOfChar_append`): decoding does not see where one piece of a text ends and the next
begins.

`Decodes` says what the lossy decoding of code units is, without computing it, and `decodes_iff` that decoding computes
it. How long the decoded text is can be bounded piece by piece (`length_decodeUnits_append_le`), and piece by piece
exactly around units that are no halves of pairs (`length_decodeUnits_around`).
-/

namespace ScriptTriage.Text

theorem toNat_char_range (c : Char) : c.toNat < 0xD800 ∨ (0xDFFF < c.toNat ∧ c.toNat < 0x110000) := by
  have h := c.valid
  simp only [UInt32.isValidChar, Nat.isValidChar] at h
  exact h

theorem toNat_ofNat_of_range {n : Nat} (h : n < 0xD800 ∨ (0xDFFF < n ∧ n < 0x110000)) : (Char.ofNat n).toNat = n := by
  have hvalid : n.isValidChar := h
  rw [Char.ofNat, dif_pos hvalid]
  rfl

theorem toNat_unit_of_lt {n : Nat} (h : n < 0x10000) : (UInt16.ofNat n).toNat = n := by
  rw [UInt16.toNat_ofNat']
  exact Nat.mod_eq_of_lt h

theorem isHighSurrogate_iff (u : CodeUnit) : isHighSurrogate u = true ↔ 0xD800 ≤ u.toNat ∧ u.toNat < 0xDC00 := by
  simp [isHighSurrogate]

theorem isLowSurrogate_iff (u : CodeUnit) : isLowSurrogate u = true ↔ 0xDC00 ≤ u.toNat ∧ u.toNat < 0xE000 := by
  simp [isLowSurrogate]

/-- a unit that is no half of a pair is decoded on its own -/
theorem decodeUnits_cons_of_not_surrogate {u : CodeUnit} (h : u.toNat < 0xD800 ∨ 0xDFFF < u.toNat)
    (us : List CodeUnit) : decodeUnits (u :: us) = Char.ofNat u.toNat :: decodeUnits us := by
  have hhigh : ¬ isHighSurrogate u = true := by rw [isHighSurrogate_iff]; omega
  have hlow : ¬ isLowSurrogate u = true := by rw [isLowSurrogate_iff]; omega
  cases us with
  | nil => simp [decodeUnits, hhigh, hlow]
  | cons v us => simp [decodeUnits, hhigh, hlow]

/-- the two halves of a pair are decoded together -/
theorem decodeUnits_cons_pair {u v : CodeUnit} (hu : 0xD800 ≤ u.toNat ∧ u.toNat < 0xDC00)
    (hv : 0xDC00 ≤ v.toNat ∧ v.toNat < 0xE000) (us : List CodeUnit) :
    decodeUnits (u :: v :: us) = joinSurrogates u v :: decodeUnits us := by
  simp [decodeUnits, (isHighSurrogate_iff u).2 hu, (isLowSurrogate_iff v).2 hv]

theorem unitsOfChar_of_lt {c : Char} (h : c.toNat < 0x10000) : unitsOfChar c = [UInt16.ofNat c.toNat] := by
  simp [unitsOfChar, h]

theorem unitsOfChar_of_le {c : Char} (h : 0x10000 ≤ c.toNat) :
    unitsOfChar c = [UInt16.ofNat (0xD800 + (c.toNat - 0x10000) / 0x400),
      UInt16.ofNat (0xDC00 + (c.toNat - 0x10000) % 0x400)] := by
  simp [unitsOfChar, Nat.not_lt.2 h]

theorem decodeUnits_unitsOfChar_append (c : Char) (us : List CodeUnit) :
    decodeUnits (unitsOfChar c ++ us) = c :: decodeUnits us := by
  have hrange := toNat_char_range c
  by_cases hsmall : c.toNat < 0x10000
  · have hunit := toNat_unit_of_lt hsmall
    rw [unitsOfChar_of_lt hsmall, List.singleton_append, decodeUnits_cons_of_not_surrogate (by omega), hunit,
      Char.ofNat_toNat]
  · have hhigh := toNat_unit_of_lt (n := 0xD800 + (c.toNat - 0x10000) / 0x400) (by omega)
    have hlow := toNat_unit_of_lt (n := 0xDC00 + (c.toNat - 0x10000) % 0x400) (by omega)
    have hjoin : 0x10000 + (0xD800 + (c.toNat - 0x10000) / 0x400 - 0xD800) * 0x400 +
        (0xDC00 + (c.toNat - 0x10000) % 0x400 - 0xDC00) = c.toNat := by omega
    rw [unitsOfChar_of_le (by omega), List.cons_append, List.singleton_append,
      decodeUnits_cons_pair (by omega) (by omega), joinSurrogates, hhigh, hlow, hjoin, Char.ofNat_toNat]

theorem decodeUnits_units (cs : List Char) : decodeUnits (units cs) = cs := by
  induction cs with
  | nil => rfl
  | cons c cs ih =>
    rw [units, List.flatMap_cons, decodeUnits_unitsOfChar_append]
    exact congrArg _ ih

/-! ## Lossy decoding -/

/-- the one or two code units of a code point; half a pair, as a code point, is one unit -/
def unitsOfCodePoint (n : Nat) : List CodeUnit :=
  if n < 0x10000 then [UInt16.ofNat n]
  else [UInt16.ofNat (0xD800 + (n - 0x10000) / 0x400), UInt16.ofNat (0xDC00 + (n - 0x10000) % 0x400)]

theorem unitsOfCodePoint_toNat (c : Char) : unitsOfCodePoint c.toNat = unitsOfChar c := rfl

def isSurrogate (u : CodeUnit) : Bool := isHighSurrogate u || isLowSurrogate u

/-- the text is the lossy decoding of the units: they are the units of its characters one after the other, but that it
has the replacement for every half without a partner -/
inductive Decodes : List CodeUnit → List Char → Prop where
  | nil : Decodes [] []
  | char {us cs} (c : Char) (h : Decodes us cs) : Decodes (unitsOfCodePoint c.toNat ++ us) (c :: cs)
  | unpaired {u us cs} (hu : isSurrogate u = true)
    (halone : isHighSurrogate u = true → ∀ v, us.head? = some v → isLowSurrogate v = false) (h : Decodes us cs) :
    Decodes (u :: us) (replacement :: cs)

theorem isSurrogate_iff (u : CodeUnit) : isSurrogate u = true ↔ 0xD800 ≤ u.toNat ∧ u.toNat < 0xE000 := by
  rw [isSurrogate, Bool.or_eq_true, isHighSurrogate_iff, isLowSurrogate_iff]
  omega

theorem isSurrogate_eq_false_iff (u : CodeUnit) : isSurrogate u = false ↔ u.toNat < 0xD800 ∨ 0xDFFF < u.toNat := by
  rw [← Bool.not_eq_true, isSurrogate_iff]
  omega

theorem decodeUnits_cons_unpaired {u : CodeUnit} {us : List CodeUnit} (hu : isSurrogate u = true)
    (halone : isHighSurrogate u = true → ∀ v, us.head? = some v → isLowSurrogate v = false) :
    decodeUnits (u :: us) = replacement :: decodeUnits us := by
  rw [isSurrogate, Bool.or_eq_true] at hu
  cases us with
  | nil => simp [decodeUnits, hu]
  | cons v us =>
    by_cases hhigh : isHighSurrogate u = true
    · simp [decodeUnits, hhigh, halone hhigh v rfl]
    · simp [decodeUnits, hhigh, hu.resolve_left hhigh]

theorem unitsOfChar_ofNat_toNat {u : CodeUnit} (h : isSurrogate u = false) :
    unitsOfChar (Char.ofNat u.toNat) = [u] := by
  have hlt : u.toNat < 0x10000 := u.toNat_lt
  have hrange := (isSurrogate_eq_false_iff u).1 h
  have hnat : (Char.ofNat u.toNat).toNat = u.toNat := toNat_ofNat_of_range (by omega)
  rw [unitsOfChar_of_lt (by rw [hnat]; exact hlt), hnat, UInt16.ofNat_toNat]

theorem unitsOfChar_joinSurrogates {u v : CodeUnit} (hu : isHighSurrogate u = true) (hv : isLowSurrogate v = true) :
    unitsOfChar (joinSurrogates u v) = [u, v] := by
  rw [isHighSurrogate_iff] at hu
  rw [isLowSurrogate_iff] at hv
  have hnat : (joinSurrogates u v).toNat = 0x10000 + (u.toNat - 0xD800) * 0x400 + (v.toNat - 0xDC00) :=
    toNat_ofNat_of_range (by omega)
  have hquot : 0xD800 + ((joinSurrogates u v).toNat - 0x10000) / 0x400 = u.toNat := by omega
  have hrem : 0xDC00 + ((joinSurrogates u v).toNat - 0x10000) % 0x400 = v.toNat := by omega
  rw [unitsOfChar_of_le (by omega), hquot, hrem, UInt16.ofNat_toNat, UInt16.ofNat_toNat]

/-- the first of some units: a character of its own, a half without a partner, or the first half of a pair -/
theorem unit_cases (u : CodeUnit) (us : List CodeUnit) :
    isSurrogate u = false ∨
    (isSurrogate u = true ∧
      (isHighSurrogate u = true → ∀ v, us.head? = some v → isLowSurrogate v = false)) ∨
    (isHighSurrogate u = true ∧ ∃ v rest, us = v :: rest ∧ isLowSurrogate v = true) := by
  by_cases hu : isSurrogate u = true
  · by_cases halone : isHighSurrogate u = true → ∀ v, us.head? = some v → isLowSurrogate v = false
    · exact .inr (.inl ⟨hu, halone⟩)
    · push Not at halone
      obtain ⟨hhigh, v, hv, hlow⟩ := halone
      obtain ⟨rest, hrest⟩ := List.head?_eq_some_iff.1 hv
      exact .inr (.inr ⟨hhigh, v, rest, hrest, by simpa using hlow⟩)
  · exact .inl (by simpa using hu)

theorem decodes_decodeUnits : ∀ us : List CodeUnit, Decodes us (decodeUnits us)
  | [] => .nil
  | u :: us => by
    rcases unit_cases u us with hu | ⟨hu, halone⟩ | ⟨hhigh, v, rest, rfl, hlow⟩
    · rw [decodeUnits_cons_of_not_surrogate ((isSurrogate_eq_false_iff u).1 hu)]
      have h := Decodes.char (Char.ofNat u.toNat) (decodes_decodeUnits us)
      rwa [unitsOfCodePoint_toNat, unitsOfChar_ofNat_toNat hu] at h
    · rw [decodeUnits_cons_unpaired hu halone]
      exact .unpaired hu halone (decodes_decodeUnits us)
    · rw [decodeUnits_cons_pair ((isHighSurrogate_iff u).1 hhigh) ((isLowSurrogate_iff v).1 hlow)]
      have h := Decodes.char (joinSurrogates u v) (decodes_decodeUnits rest)
      rwa [unitsOfCodePoint_toNat, unitsOfChar_joinSurrogates hhigh hlow] at h
termination_by us => us.length

theorem decodes_iff (us : List CodeUnit) (cs : List Char) : Decodes us cs ↔ decodeUnits us = cs := by
  constructor
  · intro h
    induction h with
    | nil => rfl
    | char c _ ih => rw [unitsOfCodePoint_toNat, decodeUnits_unitsOfChar_append, ih]
    | unpaired hu halone _ ih => rw [decodeUnits_cons_unpaired hu halone, ih]
  · rintro rfl
    exact decodes_decodeUnits us

/-! ## The length of what is decoded -/

theorem length_decodeUnits_cons_of_low {v : CodeUnit} (hv : isLowSurrogate v = true) (us : List CodeUnit) :
    (decodeUnits (v :: us)).length = (decodeUnits us).length + 1 := by
  have hnot : ¬ isHighSurrogate v = true := by
    rw [isLowSurrogate_iff] at hv
    rw [isHighSurrogate_iff]
    omega
  rw [decodeUnits_cons_unpaired (by simp [isSurrogate, hv]) (fun hhigh => absurd hhigh hnot), List.length_cons]

theorem length_decodeUnits_cons_le (u : CodeUnit) (us : List CodeUnit) :
    (decodeUnits (u :: us)).length ≤ (decodeUnits us).length + 1 := by
  rcases unit_cases u us with hu | ⟨hu, halone⟩ | ⟨hhigh, v, rest, rfl, hlow⟩
  · rw [decodeUnits_cons_of_not_surrogate ((isSurrogate_eq_false_iff u).1 hu)]
    exact Nat.le_refl _
  · rw [decodeUnits_cons_unpaired hu halone]
    exact Nat.le_refl _
  · rw [decodeUnits_cons_pair ((isHighSurrogate_iff u).1 hhigh) ((isLowSurrogate_iff v).1 hlow), List.length_cons,
      length_decodeUnits_cons_of_low hlow]
    omega

/-- two pieces are decoded to at most as much as each on its own; it is less if a pair is joined -/
theorem length_decodeUnits_append_le (us vs : List CodeUnit) :
    (decodeUnits (us ++ vs)).length ≤ (decodeUnits us).length + (decodeUnits vs).length := by
  have h := decodes_decodeUnits us
  generalize decodeUnits us = cs at h
  induction h with
  | nil => simp
  | char c _ ih =>
    rw [List.append_assoc, unitsOfCodePoint_toNat, decodeUnits_unitsOfChar_append, List.length_cons, List.length_cons]
    omega
  | @unpaired u us _ _ _ _ ih =>
    have hcons := length_decodeUnits_cons_le u (us ++ vs)
    rw [List.cons_append, List.length_cons]
    omega

/-- no pair is joined in front of a unit that is not the second half of one -/
theorem decodeUnits_append_of_not_low {v : CodeUnit} (hv : isLowSurrogate v = false) (us vs : List CodeUnit) :
    decodeUnits (us ++ v :: vs) = decodeUnits us ++ decodeUnits (v :: vs) := by
  have h := decodes_decodeUnits us
  generalize decodeUnits us = cs at h
  induction h with
  | nil => rfl
  | char c _ ih =>
    rw [List.append_assoc, unitsOfCodePoint_toNat, decodeUnits_unitsOfChar_append, ih, List.cons_append]
  | @unpaired u us _ hu halone _ ih =>
    have halone' : isHighSurrogate u = true → ∀ w, (us ++ v :: vs).head? = some w → isLowSurrogate w = false := by
      intro hhigh w hw
      cases us with
      | nil =>
        cases hw
        exact hv
      | cons _ _ => exact halone hhigh w hw
    rw [List.cons_append, decodeUnits_cons_unpaired hu halone', ih, List.cons_append]

theorem length_decodeUnits_plain {us : List CodeUnit} (h : ∀ u ∈ us, isSurrogate u = false) (vs : List CodeUnit) :
    (decodeUnits (us ++ vs)).length = us.length + (decodeUnits vs).length := by
  induction us with
  | nil => simp
  | cons u us ih =>
    rw [List.forall_mem_cons] at h
    rw [List.cons_append, decodeUnits_cons_of_not_surrogate ((isSurrogate_eq_false_iff u).1 h.1), List.length_cons, ih h.2,
      List.length_cons]
    omega

theorem length_decodeUnits_around {us : List CodeUnit} (h : ∀ u ∈ us, isSurrogate u = false) (hne : us ≠ [])
    (before after : List CodeUnit) :
    (decodeUnits (before ++ (us ++ after))).length =
      (decodeUnits before).length + us.length + (decodeUnits after).length := by
  have hplain := length_decodeUnits_plain h after
  cases us with
  | nil => exact absurd rfl hne
  | cons u us =>
    have hlow : isLowSurrogate u = false := by
      have hu := h u List.mem_cons_self
      rw [isSurrogate, Bool.or_eq_false_iff] at hu
      exact hu.2
    rw [List.cons_append] at hplain ⊢
    rw [decodeUnits_append_of_not_low hlow, List.length_append, hplain, Nat.add_assoc]

end ScriptTriage.Text

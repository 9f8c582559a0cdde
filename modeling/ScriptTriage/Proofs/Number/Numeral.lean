import ScriptTriage.Number.Radix

/-
Numerals: what it means that characters spell a number in a base, said without reading them.

`Numeral base cs n` builds the characters up digit by digit, most significant first, each digit in either case; zeros
in front are digits like any other. Reading is exact: in bases up to sixteen, digits are read as a number exactly if they
spell it (`digitsValue_eq_some_iff`), and `parseBounded_of_numeral` gives back the number of every non-empty numeral,
unless it lies above the limit.
-/

namespace ScriptTriage.Number

/-- the character writes the digit `d`, in lower or in upper case -/
def Writes (c : Char) (d : Nat) : Prop := c = d.digitChar ∨ c = d.digitChar.toUpper

instance (c : Char) (d : Nat) : Decidable (Writes c d) := inferInstanceAs (Decidable (_ ∨ _))

/-- the characters spell the number `n` in a base -/
inductive Numeral (base : Nat) : List Char → Nat → Prop where
  | nil : Numeral base [] 0
  | snoc {cs n c d} (h : Numeral base cs n) (hd : d < base) (hc : Writes c d) :
    Numeral base (cs ++ [c]) (n * base + d)

theorem digitValue_of_writes {c : Char} {d : Nat} (hd : d < 16) (h : Writes c d) : digitValue c = some d := by
  have hall : ∀ d < 16, digitValue d.digitChar = some d ∧ digitValue d.digitChar.toUpper = some d := by decide
  rcases h with rfl | rfl
  · exact (hall d hd).1
  · exact (hall d hd).2

theorem digitOf_of_writes {base : Nat} (hbase : base ≤ 16) {c : Char} {d : Nat} (hd : d < base) (h : Writes c d) :
    digitOf base c = some d := by
  have hvalue := digitValue_of_writes (by omega) h
  simp [digitOf, hvalue, hd]

theorem digitsValue_append_singleton (base : Nat) (cs : List Char) (c : Char) (acc : Nat) :
    digitsValue base (cs ++ [c]) acc =
      (digitsValue base cs acc).bind fun n => (digitOf base c).map fun d => n * base + d := by
  induction cs generalizing acc with
  | nil => cases h : digitOf base c <;> simp [digitsValue, h]
  | cons c' cs ih =>
    rw [List.cons_append, digitsValue, digitsValue]
    cases digitOf base c' with
    | none => rfl
    | some d => exact ih (acc * base + d)

theorem digitsValue_of_numeral {base : Nat} (hbase : base ≤ 16) {cs : List Char} {n : Nat} (h : Numeral base cs n) :
    digitsValue base cs 0 = some n := by
  induction h with
  | nil => rfl
  | snoc _ hd hc ih => simp [digitsValue_append_singleton, ih, digitOf_of_writes hbase hd hc]

theorem toNat_le_of_le {a b : Char} (h : a ≤ b) : a.toNat ≤ b.toNat := UInt32.le_iff_toNat_le.1 (Char.le_def.1 h)

theorem writes_of_digitValue {c : Char} {d : Nat} (hd : d < 16) (h : digitValue c = some d) : Writes c d := by
  -- digits below sixteen are characters up to `f`, and each of these is looked at
  have hall : ∀ k < 103, ∀ d < 16, digitValue (Char.ofNat k) = some d → Writes (Char.ofNat k) d := by decide
  have hc : c.toNat < 103 := by
    unfold digitValue at h
    split at h
    · rename_i hrange
      have hle := toNat_le_of_le (by simpa using hrange : '0' ≤ c ∧ c ≤ '9').2
      exact Nat.lt_of_le_of_lt hle (by decide)
    · split at h
      · have hvalue := Option.some.inj h
        have ha : 'a'.toNat = 97 := rfl
        omega
      · split at h
        · rename_i hrange
          have hle := toNat_le_of_le (by simpa using hrange : 'A' ≤ c ∧ c ≤ 'Z').2
          exact Nat.lt_of_le_of_lt hle (by decide)
        · cases h
  have hchar := hall c.toNat hc d hd
  rw [Char.ofNat_toNat] at hchar
  exact hchar h

theorem writes_of_digitOf {base : Nat} (hbase : base ≤ 16) {c : Char} {d : Nat} (h : digitOf base c = some d) :
    d < base ∧ Writes c d := by
  obtain ⟨hvalue, hd⟩ := Option.filter_eq_some_iff.1 h
  have hlt : d < base := by simpa using hd
  exact ⟨hlt, writes_of_digitValue (by omega) hvalue⟩

theorem numeral_of_digitsValue {base : Nat} (hbase : base ≤ 16) {read cs : List Char} {acc n : Nat}
    (hread : Numeral base read acc) (h : digitsValue base cs acc = some n) : Numeral base (read ++ cs) n := by
  induction cs generalizing read acc with
  | nil =>
    cases h
    rw [List.append_nil]
    exact hread
  | cons c cs ih =>
    rw [digitsValue] at h
    obtain ⟨d, hd, hrest⟩ := Option.bind_eq_some_iff.1 h
    obtain ⟨hlt, hwrites⟩ := writes_of_digitOf hbase hd
    have hnext := ih (hread.snoc hlt hwrites) hrest
    rw [List.append_assoc] at hnext
    exact hnext

theorem digitsValue_eq_some_iff {base : Nat} (hbase : base ≤ 16) {cs : List Char} {n : Nat} :
    digitsValue base cs 0 = some n ↔ Numeral base cs n :=
  ⟨fun h => numeral_of_digitsValue hbase .nil h, digitsValue_of_numeral hbase⟩

theorem Numeral.unique {base : Nat} (hbase : base ≤ 16) {cs : List Char} {n m : Nat} (hn : Numeral base cs n)
    (hm : Numeral base cs m) : n = m := by
  have hvalue := digitsValue_of_numeral hbase hn
  rw [digitsValue_of_numeral hbase hm] at hvalue
  exact (Option.some.inj hvalue).symm

theorem Numeral.exists_writes_of_mem {base : Nat} {cs : List Char} {n : Nat} (h : Numeral base cs n) {c : Char}
    (hc : c ∈ cs) : ∃ d < base, Writes c d := by
  induction h with
  | nil => exact absurd hc List.not_mem_nil
  | snoc _ hd hw ih =>
    rcases List.mem_append.1 hc with hc | hc
    · exact ih hc
    · rw [List.mem_singleton.1 hc]
      exact ⟨_, hd, hw⟩

/-- what has no value as a digit starts no numeral -/
theorem Numeral.head_ne {base : Nat} (hbase : base ≤ 16) {c : Char} {cs : List Char} {n : Nat}
    (h : Numeral base (c :: cs) n) {x : Char} (hx : digitValue x = none) : c ≠ x := by
  obtain ⟨d, hd, hw⟩ := h.exists_writes_of_mem List.mem_cons_self
  have hsome := digitValue_of_writes (by omega) hw
  rintro rfl
  rw [hx] at hsome
  cases hsome

theorem Numeral.lt_pow {base k : Nat} {cs : List Char} {n : Nat} (h : Numeral base cs n) (hlen : cs.length = k) :
    n < Nat.pow base k := by
  induction h generalizing k with
  | nil => rw [← hlen]; exact Nat.one_pos
  | @snoc cs n c d _ hd _ ih =>
    rw [List.length_append, List.length_singleton] at hlen
    subst hlen
    calc n * base + d
        < n * base + base := by omega
      _ = (n + 1) * base := (Nat.succ_mul n base).symm
      _ ≤ Nat.pow base cs.length * base := Nat.mul_le_mul_right base (ih rfl)

theorem Numeral.lt_pow_of_le {base k : Nat} (hbase : 0 < base) {cs : List Char} {n : Nat} (h : Numeral base cs n)
    (hlen : cs.length ≤ k) : n < Nat.pow base k :=
  Nat.lt_of_lt_of_le (h.lt_pow rfl) (Nat.pow_le_pow_right hbase hlen)

theorem Numeral.lt_length {base k : Nat} (hbase : 0 < base) {cs : List Char} {n : Nat} (h : Numeral base cs n)
    (hn : Nat.pow base k ≤ n) : k < cs.length := by
  apply Nat.lt_of_not_le
  intro hlen
  exact Nat.not_lt.2 hn (h.lt_pow_of_le hbase hlen)

theorem Numeral.ne_nil {base : Nat} {cs : List Char} {n : Nat} (h : Numeral base cs n) (hn : 0 < n) : cs ≠ [] := by
  rintro rfl
  have hlt : n < 1 := h.lt_pow rfl
  omega

theorem parseRadix_of_numeral {base : Nat} (hbase : base ≤ 16) {cs : List Char} {n : Nat} (h : Numeral base cs n)
    (hne : cs ≠ []) : parseRadix base cs = some n := by
  have hvalue := digitsValue_of_numeral hbase h
  cases cs with
  | nil => exact absurd rfl hne
  | cons c rest =>
    have hplus : c ≠ '+' := h.head_ne hbase (by decide)
    unfold parseRadix
    split
    · rename_i heq
      exact absurd (List.cons.inj heq).1 hplus
    · simpa using hvalue

theorem parseBounded_of_numeral {base limit : Nat} (hbase : base ≤ 16) {cs : List Char} {n : Nat}
    (h : Numeral base cs n) (hne : cs ≠ []) (hn : n ≤ limit) : parseBounded base limit cs = some n := by
  simp [parseBounded, parseRadix_of_numeral hbase h hne, hn]

theorem parseBounded_eq_none_of_numeral {base limit : Nat} (hbase : base ≤ 16) {cs : List Char} {n : Nat}
    (h : Numeral base cs n) (hne : cs ≠ []) (hn : limit < n) : parseBounded base limit cs = none := by
  simp [parseBounded, parseRadix_of_numeral hbase h hne, hn]

end ScriptTriage.Number

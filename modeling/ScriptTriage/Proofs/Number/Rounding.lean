import Mathlib.Data.Nat.Dist
import ScriptTriage.Number.Binary64

/-
Rounding natural numbers to binary floating point, as the standard has it: to the nearest number, and of two that are
equally near to the one with an even bit pattern.

The pattern of a number that is not negative counts the numbers below it. All of them are multiples of the least one
above zero, two to the power -1074, and `units` says which multiple. Infinity takes the place of two to the power 1024,
the first number beyond the range.

- `NearestEven`: what it means that a pattern is the rounded number, said without computing it. At most one pattern is
  (`NearestEven.unique`).
- `nearestEven_magnitude`: the computed pattern is.
- `ofNat_eq_infinity_iff`: numbers are rounded to infinity from halfway between the greatest number and two to the power
  1024 on.
-/

namespace ScriptTriage.Number.Binary64

/-! ## Patterns and their numbers -/

/-- the number of a pattern, in units of two to the power -1074 -/
def units (pattern : Nat) : Nat :=
  if pattern < mantissaCount then pattern
  else (mantissaCount + pattern % mantissaCount) * Nat.pow 2 (pattern / mantissaCount - 1)

/-- the least number above zero is two to the power of minus this -/
def leastExponent : Nat := 1074

/-- how many units make one -/
@[irreducible] def unitsOfOne : Nat := Nat.pow 2 leastExponent

/-- the pattern is that of `n`, rounded to the nearest number; of two that are equally near, the even one is taken -/
structure NearestEven (n pattern : Nat) : Prop where
  le_infinity : pattern ≤ infinityBits
  nearest : ∀ other ≤ infinityBits, (n * unitsOfOne).dist (units pattern) ≤ (n * unitsOfOne).dist (units other)
  even : ∀ other ≤ infinityBits, other ≠ pattern →
    (n * unitsOfOne).dist (units other) = (n * unitsOfOne).dist (units pattern) → pattern % 2 = 0

theorem two_pow_pos (n : Nat) : 0 < Nat.pow 2 n := Nat.pow_pos (by decide)

theorem two_pow_add (a b : Nat) : Nat.pow 2 (a + b) = Nat.pow 2 a * Nat.pow 2 b := Nat.pow_add 2 a b

theorem unitsOfOne_pos : 0 < unitsOfOne := by
  unfold unitsOfOne
  exact two_pow_pos leastExponent

/-- powers of two, counted in units -/
theorem two_pow_mul_unitsOfOne {a b : Nat} (h : a + leastExponent = b) : Nat.pow 2 a * unitsOfOne = Nat.pow 2 b := by
  rw [← h, two_pow_add]
  unfold unitsOfOne
  rfl

theorem mantissaCount_eq : mantissaCount = Nat.pow 2 52 := by decide

theorem units_of_lt {pattern : Nat} (h : pattern < mantissaCount) : units pattern = pattern := if_pos h

/-- between two powers of two, patterns go up by one while numbers go up by the same power of two -/
theorem units_add (exponent : Nat) {mantissa : Nat} (hlow : mantissaCount ≤ mantissa) (hhigh : mantissa ≤ 2 * mantissaCount) :
    units (exponent * mantissaCount + mantissa) = mantissa * Nat.pow 2 exponent := by
  have hcount : 0 < mantissaCount := by decide
  have hlarge : ¬exponent * mantissaCount + mantissa < mantissaCount := by omega
  rw [units, if_neg hlarge]
  rcases Nat.lt_or_ge mantissa (2 * mantissaCount) with hlt | hge
  · obtain ⟨rest, rfl⟩ := Nat.exists_eq_add_of_le hlow
    have hrest : rest < mantissaCount := by omega
    have hsplit : exponent * mantissaCount + (mantissaCount + rest) = rest + mantissaCount * (exponent + 1) := by
      rw [Nat.mul_add, Nat.mul_comm exponent]
      omega
    rw [hsplit, Nat.add_mul_mod_self_left, Nat.mod_eq_of_lt hrest, Nat.add_mul_div_left _ _ hcount,
      Nat.div_eq_of_lt hrest, Nat.zero_add, Nat.add_sub_cancel]
  · -- the number above is a power of two, and has the next exponent
    have hmantissa : mantissa = 2 * mantissaCount := by omega
    subst hmantissa
    have hsplit : exponent * mantissaCount + 2 * mantissaCount = 0 + mantissaCount * (exponent + 2) := by
      rw [Nat.mul_add, Nat.mul_comm exponent]
      omega
    rw [hsplit, Nat.add_mul_mod_self_left, Nat.zero_mod, Nat.add_mul_div_left _ _ hcount, Nat.zero_div, Nat.zero_add,
      Nat.add_zero, show exponent + 2 - 1 = exponent + 1 from rfl, show Nat.pow 2 (exponent + 1) = Nat.pow 2 exponent * 2 from rfl]
    rw [Nat.mul_comm 2 mantissaCount, Nat.mul_assoc, Nat.mul_comm 2]

/-- the exponent and the mantissa of a pattern -/
theorem exists_exponent_mantissa {pattern : Nat} (h : mantissaCount ≤ pattern) :
    ∃ exponent mantissa, mantissaCount ≤ mantissa ∧ mantissa < 2 * mantissaCount ∧
      pattern = exponent * mantissaCount + mantissa := by
  have hcount : 0 < mantissaCount := by decide
  have hquotient : 0 < pattern / mantissaCount := Nat.div_pos h hcount
  have hrest : pattern % mantissaCount < mantissaCount := Nat.mod_lt pattern hcount
  obtain ⟨exponent, hexponent⟩ := Nat.exists_eq_succ_of_ne_zero hquotient.ne'
  refine ⟨exponent, mantissaCount + pattern % mantissaCount, by omega, by omega, ?_⟩
  calc pattern
      = pattern / mantissaCount * mantissaCount + pattern % mantissaCount := (Nat.div_add_mod' pattern mantissaCount).symm
    _ = (exponent + 1) * mantissaCount + pattern % mantissaCount := by rw [hexponent]
    _ = exponent * mantissaCount + (mantissaCount + pattern % mantissaCount) := by
      rw [Nat.add_mul, Nat.one_mul, Nat.add_assoc]

theorem units_lt_succ (pattern : Nat) : units pattern < units (pattern + 1) := by
  rcases Nat.lt_or_ge pattern mantissaCount with hlt | hge
  · rw [units_of_lt hlt]
    rcases Nat.lt_or_ge (pattern + 1) mantissaCount with hsucc | hsucc
    · rw [units_of_lt hsucc]
      exact Nat.lt_succ_self pattern
    · have hcount : pattern + 1 = 0 * mantissaCount + mantissaCount := by omega
      rw [hcount, units_add 0 (Nat.le_refl _) (by omega), show Nat.pow 2 0 = 1 from rfl, Nat.mul_one]
      exact hlt
  · obtain ⟨exponent, mantissa, hlow, hhigh, rfl⟩ := exists_exponent_mantissa hge
    rw [Nat.add_assoc, units_add exponent hlow (by omega), units_add exponent (by omega) (by omega), Nat.add_mul,
      Nat.one_mul]
    exact Nat.lt_add_of_pos_right (two_pow_pos exponent)

theorem units_lt {a b : Nat} (h : a < b) : units a < units b := by
  induction h with
  | refl => exact units_lt_succ a
  | step _ ih => exact ih.trans (units_lt_succ _)

theorem units_le {a b : Nat} (h : a ≤ b) : units a ≤ units b := by
  rcases Nat.lt_or_eq_of_le h with h | rfl
  · exact (units_lt h).le
  · exact Nat.le_refl _

/-! ## At most one pattern -/

/-- between two patterns that are equally near, and nearest, there is no other one -/
theorem NearestEven.le_succ {n a b : Nat} (ha : NearestEven n a) (hb : NearestEven n b) : b ≤ a + 1 := by
  apply Nat.le_of_not_lt
  intro hlt
  have hab := ha.nearest b hb.le_infinity
  have hba := hb.nearest a ha.le_infinity
  have hbetween := ha.nearest (a + 1) (by have := hb.le_infinity; omega)
  have hlow := units_lt_succ a
  have hhigh := units_lt hlt
  simp only [Nat.dist] at hab hba hbetween
  omega

theorem NearestEven.unique {n a b : Nat} (ha : NearestEven n a) (hb : NearestEven n b) : a = b := by
  by_contra hne
  have hdist : (n * unitsOfOne).dist (units b) = (n * unitsOfOne).dist (units a) :=
    Nat.le_antisymm (hb.nearest a ha.le_infinity) (ha.nearest b hb.le_infinity)
  have hevenA := ha.even b hb.le_infinity (fun h => hne h.symm) hdist
  have hevenB := hb.even a ha.le_infinity hne hdist.symm
  have hab := ha.le_succ hb
  have hba := hb.le_succ ha
  omega

/-! ## The computed pattern -/

/-- for a number above a pattern, all patterns below are farther away -/
theorem dist_lt_of_lt {n low other : Nat} (hlow : units low ≤ n * unitsOfOne) (h : other < low) :
    (n * unitsOfOne).dist (units low) < (n * unitsOfOne).dist (units other) := by
  have hother := units_lt h
  simp only [Nat.dist]
  omega

/-- for a number below a pattern, all patterns above are farther away -/
theorem dist_lt_of_gt {n high other : Nat} (hhigh : n * unitsOfOne ≤ units high) (h : high < other) :
    (n * unitsOfOne).dist (units high) < (n * unitsOfOne).dist (units other) := by
  have hother := units_lt h
  simp only [Nat.dist]
  omega

/-- between two neighbours, a number is rounded to the nearer one, or to the even one if it is halfway -/
def Settles (n low pattern : Nat) : Prop :=
  (pattern = low ∧ 2 * (n * unitsOfOne) < units low + units (low + 1)) ∨
  (pattern = low + 1 ∧ units low + units (low + 1) < 2 * (n * unitsOfOne)) ∨
  ((pattern = low ∨ pattern = low + 1) ∧ pattern % 2 = 0 ∧ 2 * (n * unitsOfOne) = units low + units (low + 1))

theorem nearestEven_of_settles {n low pattern : Nat} (hinfinity : low < infinityBits)
    (hlow : units low ≤ n * unitsOfOne) (hhigh : n * unitsOfOne ≤ units (low + 1)) (h : Settles n low pattern) :
    NearestEven n pattern := by
  have hpattern : pattern = low ∨ pattern = low + 1 := by
    rcases h with ⟨h, -⟩ | ⟨h, -⟩ | ⟨h, -⟩
    · exact .inl h
    · exact .inr h
    · exact h
  have hnear : (n * unitsOfOne).dist (units pattern) ≤ (n * unitsOfOne).dist (units low) ∧
      (n * unitsOfOne).dist (units pattern) ≤ (n * unitsOfOne).dist (units (low + 1)) := by
    simp only [Nat.dist]
    rcases h with ⟨rfl, h⟩ | ⟨rfl, h⟩ | ⟨rfl | rfl, -, h⟩ <;> omega
  refine ⟨by omega, fun other _ => ?_, fun other _ hne hdist => ?_⟩
  · rcases Nat.lt_trichotomy other low with hlt | rfl | hgt
    · exact hnear.1.trans (dist_lt_of_lt hlow hlt).le
    · exact hnear.1
    · rcases Nat.lt_or_eq_of_le hgt with hgt | rfl
      · exact hnear.2.trans (dist_lt_of_gt hhigh hgt).le
      · exact hnear.2
  · -- only the other neighbour can be as near, and then the number is halfway
    have hother : other = low ∨ other = low + 1 := by
      rcases Nat.lt_trichotomy other low with hlt | heq | hgt
      · have hfar := dist_lt_of_lt hlow hlt
        omega
      · exact .inl heq
      · rcases Nat.lt_or_eq_of_le hgt with hgt | heq
        · have hfar := dist_lt_of_gt hhigh hgt
          omega
        · exact .inr heq.symm
    have htie : (n * unitsOfOne).dist (units low) = (n * unitsOfOne).dist (units (low + 1)) := by
      rcases hother with rfl | rfl
      · rcases hpattern with rfl | rfl
        · exact absurd rfl hne
        · exact hdist
      · rcases hpattern with rfl | rfl
        · exact hdist.symm
        · exact absurd rfl hne
    simp only [Nat.dist] at htie
    rcases h with ⟨-, h⟩ | ⟨-, h⟩ | ⟨-, heven, -⟩
    · omega
    · omega
    · exact heven

/-- beyond the range every number is rounded to infinity -/
theorem nearestEven_infinity {n : Nat} (h : units infinityBits ≤ n * unitsOfOne) : NearestEven n infinityBits := by
  refine ⟨Nat.le_refl _, fun other hother => ?_, fun _ _ _ _ => by decide⟩
  have hunits := units_le hother
  simp only [Nat.dist]
  omega

/-! ### Rounding a quotient -/

theorem roundDiv_mul_right (num den : Nat) {factor : Nat} (h : 0 < factor) :
    roundDiv (num * factor) (den * factor) = roundDiv num den := by
  have hless (a b : Nat) : 2 * (a * factor) < b * factor ↔ 2 * a < b := by
    rw [← Nat.mul_assoc, Nat.mul_lt_mul_right h]
  have hmore (a b : Nat) : b * factor < 2 * (a * factor) ↔ b < 2 * a := by
    rw [← Nat.mul_assoc, Nat.mul_lt_mul_right h]
  simp only [roundDiv, Nat.mul_div_mul_right _ _ h, Nat.mul_mod_mul_right, hless, hmore]

/-- the cases of rounding, told by the number and its two neighbours -/
theorem roundDiv_cases (num den : Nat) :
    (roundDiv num den = num / den ∧ 2 * num < (num / den + (num / den + 1)) * den) ∨
    (roundDiv num den = num / den + 1 ∧ (num / den + (num / den + 1)) * den < 2 * num) ∨
    ((roundDiv num den = num / den ∨ roundDiv num den = num / den + 1) ∧ roundDiv num den % 2 = 0 ∧
      2 * num = (num / den + (num / den + 1)) * den) := by
  have hnum := Nat.div_add_mod' num den
  have hsum : (num / den + (num / den + 1)) * den = 2 * (num / den * den) + den := by
    rw [Nat.add_mul, Nat.add_mul, Nat.one_mul]
    omega
  rw [hsum]
  unfold roundDiv
  dsimp only
  split
  · exact .inl ⟨rfl, by omega⟩
  · split
    · exact .inr (.inl ⟨rfl, by omega⟩)
    · refine .inr (.inr ?_)
      split
      · exact ⟨.inl rfl, by assumption, by omega⟩
      · exact ⟨.inr rfl, by omega, by omega⟩

/-! ### Natural numbers -/

theorem floorLog2_one {n : Nat} (h : n ≠ 0) : floorLog2 n 1 = (Nat.log2 n : Int) := by
  have hle : Nat.pow 2 (Nat.log2 n) ≤ n := Nat.log2_self_le h
  have hone : Nat.log2 1 = 0 := by decide
  simp only [floorLog2, hone, Int.natCast_zero, Int.sub_zero, Int.natCast_nonneg, if_true, Int.toNat_natCast, Nat.one_mul,
    decide_eq_true hle]

/-- counted in units, a number is rounded to a multiple of a power of two -/
theorem roundTo_log2 (n : Nat) :
    roundTo n 1 ((Nat.log2 n : Int) - 52) = roundDiv (n * unitsOfOne) (Nat.pow 2 (Nat.log2 n + 1022)) := by
  unfold roundTo
  split
  · obtain ⟨shift, hshift⟩ : ∃ shift : Nat, Nat.log2 n = shift + 52 := ⟨Nat.log2 n - 52, by omega⟩
    have hunit : ((Nat.log2 n : Int) - 52).toNat = shift := by omega
    have hden : Nat.pow 2 shift * unitsOfOne = Nat.pow 2 (Nat.log2 n + 1022) :=
      two_pow_mul_unitsOfOne (by unfold leastExponent; omega)
    rw [hunit, ← hden, roundDiv_mul_right _ _ unitsOfOne_pos, Nat.one_mul]
  · obtain ⟨shift, hshift⟩ : ∃ shift : Nat, shift + Nat.log2 n = 52 := ⟨52 - Nat.log2 n, by omega⟩
    have hunit : (-((Nat.log2 n : Int) - 52)).toNat = shift := by omega
    have hone : unitsOfOne = Nat.pow 2 shift * Nat.pow 2 (Nat.log2 n + 1022) := by
      rw [← two_pow_add, ← two_pow_mul_unitsOfOne (a := 0) (by unfold leastExponent; omega)]
      exact (Nat.one_mul _).symm
    have hscaled := roundDiv_mul_right (n * Nat.pow 2 shift) 1 (two_pow_pos (Nat.log2 n + 1022))
    rw [hunit, hone, ← Nat.mul_assoc, ← hscaled, Nat.one_mul]

theorem magnitude_eq {n : Nat} (h : n ≠ 0) :
    magnitude n 1 = min infinityBits ((Nat.log2 n + 1022) * mantissaCount +
      roundDiv (n * unitsOfOne) (Nat.pow 2 (Nat.log2 n + 1022))) := by
  have hlarge : ¬(Nat.log2 n : Int) < -1022 := by omega
  have hexponent : ((Nat.log2 n : Int) + 1022).toNat = Nat.log2 n + 1022 := by omega
  simp only [magnitude, if_neg h, floorLog2_one h, if_neg hlarge, hexponent, roundTo_log2]

/-- the leading power of two puts the mantissa of a number in range -/
theorem mantissa_bounds {n : Nat} (h : n ≠ 0) :
    mantissaCount ≤ n * unitsOfOne / Nat.pow 2 (Nat.log2 n + 1022) ∧
      n * unitsOfOne / Nat.pow 2 (Nat.log2 n + 1022) < 2 * mantissaCount := by
  have hlow : Nat.pow 2 (Nat.log2 n) ≤ n := Nat.log2_self_le h
  have hhigh : n < 2 * Nat.pow 2 (Nat.log2 n) := by
    rw [Nat.mul_comm]
    exact Nat.lt_log2_self
  have hleading : mantissaCount * Nat.pow 2 (Nat.log2 n + 1022) = Nat.pow 2 (Nat.log2 n) * unitsOfOne := by
    rw [mantissaCount_eq, ← two_pow_add]
    exact (two_pow_mul_unitsOfOne (by unfold leastExponent; omega)).symm
  constructor
  · rw [Nat.le_div_iff_mul_le (two_pow_pos _), hleading]
    exact Nat.mul_le_mul_right _ hlow
  · rw [Nat.div_lt_iff_lt_mul (two_pow_pos _), Nat.mul_assoc, hleading, ← Nat.mul_assoc]
    exact Nat.mul_lt_mul_of_pos_right hhigh unitsOfOne_pos

theorem nearestEven_zero : NearestEven 0 0 := by
  have hzero : units 0 = 0 := rfl
  refine ⟨Nat.zero_le _, fun other _ => ?_, fun _ _ _ _ => rfl⟩
  rw [hzero, Nat.zero_mul]
  simp [Nat.dist]

theorem nearestEven_magnitude_of_ne_zero {n : Nat} (h : n ≠ 0) : NearestEven n (magnitude n 1) := by
  obtain ⟨hlow, hhigh⟩ := mantissa_bounds h
  have hfloor := Nat.div_mul_le_self (n * unitsOfOne) (Nat.pow 2 (Nat.log2 n + 1022))
  have hceil := Nat.lt_div_mul_add (a := n * unitsOfOne) (two_pow_pos (Nat.log2 n + 1022))
  have hcases := roundDiv_cases (n * unitsOfOne) (Nat.pow 2 (Nat.log2 n + 1022))
  rw [magnitude_eq h]
  generalize n * unitsOfOne / Nat.pow 2 (Nat.log2 n + 1022) = quotient at *
  generalize roundDiv (n * unitsOfOne) (Nat.pow 2 (Nat.log2 n + 1022)) = rounded at *
  generalize Nat.log2 n + 1022 = exponent at *
  have hunder := units_add exponent hlow (by omega)
  have hover : units (exponent * mantissaCount + (quotient + 1)) = (quotient + 1) * Nat.pow 2 exponent :=
    units_add exponent (by omega) (by omega)
  have hparity : exponent * mantissaCount % 2 = 0 := by simp [Nat.mul_mod, show mantissaCount % 2 = 0 from rfl]
  rw [← Nat.add_assoc, Nat.add_mul, Nat.one_mul] at hover
  simp only [Nat.add_mul, Nat.one_mul] at hcases
  rcases Nat.lt_or_ge (exponent * mantissaCount + quotient) infinityBits with hinfinity | hinfinity
  · rw [Nat.min_eq_right (by omega)]
    refine nearestEven_of_settles hinfinity (by omega) (by omega) ?_
    rw [Settles, hunder, hover]
    omega
  · rw [Nat.min_eq_left (by omega)]
    apply nearestEven_infinity
    calc units infinityBits
        ≤ units (exponent * mantissaCount + quotient) := units_le hinfinity
      _ = quotient * Nat.pow 2 exponent := hunder
      _ ≤ n * unitsOfOne := hfloor

/-- **Rounding is exact.** The computed pattern of a natural number is that of the nearest number, and of the even one of
two that are equally near. -/
theorem nearestEven_magnitude (n : Nat) : NearestEven n (magnitude n 1) := by
  by_cases h : n = 0
  · subst h
    exact nearestEven_zero
  · exact nearestEven_magnitude_of_ne_zero h

/-! ## Numbers -/

/-- the number is `n`, rounded -/
def Rounds (n : Nat) (x : Binary64) : Prop := NearestEven n x.bits.toNat

theorem toNat_bits_ofNat (n : Nat) : (ofNat n).bits.toNat = magnitude n 1 := by
  have hle := (nearestEven_magnitude n).le_infinity
  have hinfinity : infinityBits < UInt64.size := by decide
  have hbits : (ofNat n).bits = UInt64.ofNat (magnitude n 1) := congrArg UInt64.ofNat (Nat.zero_add _)
  rw [hbits]
  exact UInt64.toNat_ofNat_of_lt (Nat.lt_of_le_of_lt hle hinfinity)

theorem rounds_iff (n : Nat) (x : Binary64) : Rounds n x ↔ x = ofNat n := by
  have hnearest : Rounds n (ofNat n) := by
    rw [Rounds, toNat_bits_ofNat]
    exact nearestEven_magnitude n
  constructor
  · intro h
    obtain ⟨bits⟩ := x
    have hbits : bits.toNat = (ofNat n).bits.toNat := h.unique hnearest
    rw [UInt64.toNat_inj.1 hbits]
  · rintro rfl
    exact hnearest

/-- a number is rounded to infinity if it is at least halfway from the greatest number to the power of two above -/
theorem ofNat_eq_infinity_iff (n : Nat) :
    ofNat n = infinity false ↔ units (infinityBits - 1) + units infinityBits ≤ 2 * (n * unitsOfOne) := by
  have hbits : (infinity false).bits.toNat = infinityBits := by decide
  have hsucc : infinityBits - 1 + 1 = infinityBits := by decide
  have hlt : units (infinityBits - 1) < units infinityBits := units_lt (by decide)
  rw [eq_comm, ← rounds_iff, Rounds, hbits]
  constructor
  · intro h
    have hnear := h.nearest (infinityBits - 1) (by decide)
    simp only [Nat.dist] at hnear
    omega
  · intro h
    rcases Nat.lt_or_ge (n * unitsOfOne) (units infinityBits) with hbelow | habove
    · have hsettles : Settles n (infinityBits - 1) infinityBits := by
        rw [Settles, hsucc]
        rcases Nat.lt_or_eq_of_le h with h | h
        · exact .inr (.inl ⟨rfl, h⟩)
        · exact .inr (.inr ⟨.inr rfl, by decide, h.symm⟩)
      refine nearestEven_of_settles (by decide) (by omega) ?_ hsettles
      rw [hsucc]
      exact hbelow.le
    · exact nearestEven_infinity habove

end ScriptTriage.Number.Binary64

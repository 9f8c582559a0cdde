import ScriptTriage.Proofs.Number.Form
import ScriptTriage.Yaml.Resolve

/-
What a scalar of a document carries, said without reading it.

- `unsigned?_eq_some_iff`: a text is read as a natural number exactly if it spells it, behind at most one plus sign: in
  decimal without zeros in front, or with the mark of a base.
- `boolean?_eq_some_iff`: a text is read as a truth value exactly if it is one of the three words for it.
- `toNat?_scalar`, `toBool?_scalar`: a scalar carries what its text spells, if its style leaves that open; a number is
  taken from it if it fits into 64 bits.
-/

namespace ScriptTriage.Yaml

open ScriptTriage.Number (Numeral parseRadix)

/-! ## Natural numbers -/

/-- the characters spell the number without a sign: in decimal without zeros in front, or behind the mark of a base -/
inductive Magnitude (n : Nat) : List Char → Prop where
  | decimal {cs} (h : Numeral 10 cs n) (hne : cs ≠ []) (hzero : cs.head? = some '0' → cs = ['0']) : Magnitude n cs
  | marked {base mark cs} (hmark : (mark, base) ∈ [('x', 16), ('o', 8), ('b', 2)]) (h : Numeral base cs n)
    (hne : cs ≠ []) : Magnitude n ('0' :: mark :: cs)

/-- the characters spell the number, behind at most one plus sign -/
def SpellsNat (cs : List Char) (n : Nat) : Prop := Magnitude n cs ∨ ∃ rest, cs = '+' :: rest ∧ Magnitude n rest

theorem isSigned_of_numeral {base : Nat} (hbase : base ≤ 16) {cs : List Char} {n : Nat} (h : Numeral base cs n) :
    isSigned cs = false := by
  unfold isSigned
  split
  · exact absurd rfl (h.head_ne hbase (by decide))
  · exact absurd rfl (h.head_ne hbase (by decide))
  · rfl

theorem digits?_eq_some_iff {base : Nat} (hbase : base ≤ 16) (limit : Nat) (cs : List Char) (n : Nat) :
    digits? base limit cs = some n ↔ Numeral base cs n ∧ cs ≠ [] ∧ n ≤ limit := by
  constructor
  · intro h
    unfold digits? at h
    split at h
    · cases h
    · rename_i hsigned
      obtain ⟨hradix, hn⟩ := Option.filter_eq_some_iff.1 h
      unfold parseRadix at hradix
      split at hradix
      · exact absurd rfl hsigned
      · dsimp only at hradix
        split at hradix
        · cases hradix
        · rename_i hne
          exact ⟨(Number.digitsValue_eq_some_iff hbase).1 hradix, by simpa using hne, by simpa using hn⟩
  · rintro ⟨hnumeral, hne, hn⟩
    rw [digits?, isSigned_of_numeral hbase hnumeral]
    exact Number.parseBounded_of_numeral hbase hnumeral hne hn

theorem baseOf?_eq_some_iff (body : List Char) (base : Nat) (rest : List Char) :
    baseOf? body = some (base, rest) ↔
      ∃ mark, body = '0' :: mark :: rest ∧ (mark, base) ∈ [('x', 16), ('o', 8), ('b', 2)] := by
  constructor
  · intro h
    unfold baseOf? at h
    split at h
    · cases h
      exact ⟨'x', rfl, by simp⟩
    · cases h
      exact ⟨'o', rfl, by simp⟩
    · cases h
      exact ⟨'b', rfl, by simp⟩
    · cases h
  · rintro ⟨mark, rfl, hmark⟩
    simp only [List.mem_cons, Prod.mk.injEq, List.not_mem_nil, or_false] at hmark
    rcases hmark with ⟨rfl, rfl⟩ | ⟨rfl, rfl⟩ | ⟨rfl, rfl⟩ <;> rfl

theorem le_sixteen_of_mark {mark : Char} {base : Nat} (h : (mark, base) ∈ [('x', 16), ('o', 8), ('b', 2)]) :
    base ≤ 16 := by
  simp only [List.mem_cons, Prod.mk.injEq, List.not_mem_nil, or_false] at h
  omega

/-- the number behind the sign; `isPadded` tells whether it has zeros in front -/
def magnitude? (limit : Nat) (isPadded : Bool) (body : List Char) : Option Nat :=
  ((baseOf? body).bind fun b => digits? b.1 limit b.2).or (if isPadded then none else digits? 10 limit body)

theorem unsigned?_plus (limit : Nat) (rest : List Char) :
    unsigned? limit ('+' :: rest) = magnitude? limit (isPaddedDigits ('+' :: rest)) rest := by
  simp only [unsigned?, magnitude?]
  cases (baseOf? rest).bind fun b => digits? b.1 limit b.2 <;> rfl

theorem unsigned?_of_head_ne (limit : Nat) {cs : List Char} (h : ∀ rest, cs ≠ '+' :: rest) :
    unsigned? limit cs = magnitude? limit (isPaddedDigits cs) cs := by
  unfold unsigned? magnitude?
  split
  · exact absurd rfl (h _)
  · dsimp only
    cases (baseOf? cs).bind fun b => digits? b.1 limit b.2 <;> rfl

/-- digits behind at most one plus sign are padded if they start with a zero and are more than it -/
theorem isPaddedDigits_eq_false_iff {cs body : List Char} (hcs : cs = body ∨ cs = '+' :: body) {n : Nat}
    (h : Numeral 10 body n) : isPaddedDigits cs = false ↔ (body.head? = some '0' → body = ['0']) := by
  cases body with
  | nil => rcases hcs with rfl | rfl <;> simp [isPaddedDigits]
  | cons c rest =>
    have hplus : c ≠ '+' := h.head_ne (by decide) (by decide)
    have hminus : c ≠ '-' := h.head_ne (by decide) (by decide)
    have hdigits : ∀ d ∈ rest, Number.isDigit d = true := fun d hd => h.isDigit_of_mem d (List.mem_cons_of_mem c hd)
    by_cases hzero : c = '0'
    · subst hzero
      cases rest with
      | nil => rcases hcs with rfl | rfl <;> simp [isPaddedDigits]
      | cons d rest => rcases hcs with rfl | rfl <;> simp_all [isPaddedDigits]
    · rcases hcs with rfl | rfl <;> simp [isPaddedDigits, hplus, hminus, hzero]

theorem marked?_eq_some_iff (limit : Nat) (body : List Char) (n : Nat) :
    ((baseOf? body).bind fun b => digits? b.1 limit b.2) = some n ↔
      ∃ mark base rest, body = '0' :: mark :: rest ∧ (mark, base) ∈ [('x', 16), ('o', 8), ('b', 2)] ∧
        Numeral base rest n ∧ rest ≠ [] ∧ n ≤ limit := by
  rw [Option.bind_eq_some_iff]
  constructor
  · rintro ⟨⟨base, rest⟩, hbase, hdigits⟩
    obtain ⟨mark, hbody, hmark⟩ := (baseOf?_eq_some_iff body base rest).1 hbase
    exact ⟨mark, base, rest, hbody, hmark, (digits?_eq_some_iff (le_sixteen_of_mark hmark) limit rest n).1 hdigits⟩
  · rintro ⟨mark, base, rest, hbody, hmark, hrest⟩
    exact ⟨(base, rest), (baseOf?_eq_some_iff body base rest).2 ⟨mark, hbody, hmark⟩,
      (digits?_eq_some_iff (le_sixteen_of_mark hmark) limit rest n).2 hrest⟩

theorem magnitude?_eq_some_iff (limit : Nat) {cs body : List Char} (hcs : cs = body ∨ cs = '+' :: body) (n : Nat) :
    magnitude? limit (isPaddedDigits cs) body = some n ↔ Magnitude n body ∧ n ≤ limit := by
  rw [magnitude?, Option.or_eq_some_iff, marked?_eq_some_iff]
  constructor
  · rintro (⟨mark, base, rest, rfl, hmark, hnumeral, hne, hn⟩ | ⟨-, hdecimal⟩)
    · exact ⟨.marked hmark hnumeral hne, hn⟩
    · split at hdecimal
      · cases hdecimal
      · rename_i hpadded
        obtain ⟨hnumeral, hne, hn⟩ := (digits?_eq_some_iff (by decide) limit body n).1 hdecimal
        have hzero := (isPaddedDigits_eq_false_iff hcs hnumeral).1 (by simpa using hpadded)
        exact ⟨.decimal hnumeral hne hzero, hn⟩
  · rintro ⟨hmagnitude, hn⟩
    cases hmagnitude with
    | marked hmark hnumeral hne => exact .inl ⟨_, _, _, rfl, hmark, hnumeral, hne, hn⟩
    | decimal hnumeral hne hzero =>
      refine .inr ⟨?_, ?_⟩
      · -- behind a zero there is nothing, so no mark
        rw [Option.eq_none_iff_forall_ne_some]
        intro m hm
        obtain ⟨mark, base, rest, rfl, -⟩ := (marked?_eq_some_iff limit body m).1 hm
        cases hzero rfl
      · rw [(isPaddedDigits_eq_false_iff hcs hnumeral).2 hzero]
        exact (digits?_eq_some_iff (by decide) limit body n).2 ⟨hnumeral, hne, hn⟩

/-- no sign starts a number that has none -/
theorem Magnitude.head_ne {n : Nat} {rest : List Char} : ¬ Magnitude n ('+' :: rest) := by
  rintro (⟨hnumeral, -, -⟩)
  exact hnumeral.head_ne (by decide) (by decide) rfl

theorem unsigned?_eq_some_iff (limit : Nat) (cs : List Char) (n : Nat) :
    unsigned? limit cs = some n ↔ SpellsNat cs n ∧ n ≤ limit := by
  by_cases hplus : ∃ rest, cs = '+' :: rest
  · obtain ⟨rest, rfl⟩ := hplus
    rw [unsigned?_plus, magnitude?_eq_some_iff limit (.inr rfl)]
    constructor
    · rintro ⟨hmagnitude, hn⟩
      exact ⟨.inr ⟨rest, rfl, hmagnitude⟩, hn⟩
    · rintro ⟨hmagnitude | ⟨body, hbody, hmagnitude⟩, hn⟩
      · exact absurd hmagnitude Magnitude.head_ne
      · cases hbody
        exact ⟨hmagnitude, hn⟩
  · have hne : ∀ rest, cs ≠ '+' :: rest := fun rest hcs => hplus ⟨rest, hcs⟩
    rw [unsigned?_of_head_ne limit hne, magnitude?_eq_some_iff limit (.inl rfl)]
    constructor
    · rintro ⟨hmagnitude, hn⟩
      exact ⟨.inl hmagnitude, hn⟩
    · rintro ⟨hmagnitude | ⟨rest, hcs, -⟩, hn⟩
      · exact ⟨hmagnitude, hn⟩
      · exact absurd hcs (hne rest)

/-! ## Truth values -/

/-- the text is a word for the truth value -/
def SpellsBool (text : String) (b : Bool) : Prop :=
  text ∈ if b then ["true", "True", "TRUE"] else ["false", "False", "FALSE"]

theorem boolean?_eq_some_iff (text : String) (b : Bool) : boolean? text = some b ↔ SpellsBool text b := by
  unfold boolean? SpellsBool
  by_cases htrue : text ∈ ["true", "True", "TRUE"]
  · rw [if_pos (List.contains_iff_mem.2 htrue)]
    cases b with
    | true => exact ⟨fun _ => htrue, fun _ => rfl⟩
    | false =>
      -- no word for the one is a word for the other
      simp only [List.mem_cons, List.not_mem_nil, or_false] at htrue
      rcases htrue with rfl | rfl | rfl <;> simp
  · rw [if_neg fun h => htrue (List.contains_iff_mem.1 h)]
    cases b with
    | true => simp [htrue]
    | false =>
      by_cases hfalse : text ∈ ["false", "False", "FALSE"]
      · rw [if_pos (List.contains_iff_mem.2 hfalse)]
        exact ⟨fun _ => hfalse, fun _ => rfl⟩
      · rw [if_neg fun h => hfalse (List.contains_iff_mem.1 h)]
        exact ⟨fun h => absurd h (by simp), fun h => absurd h hfalse⟩

/-! ## Scalars -/

/-- the scalar carries the natural number: its text may be read as a number, and spells it -/
def Scalar.CarriesNat (s : Scalar) (n : Nat) : Prop := s.isOpen "int" = true ∧ SpellsNat s.text.toList n

/-- the scalar carries the truth value: its text may be read as one, and is a word for it -/
def Scalar.CarriesBool (s : Scalar) (b : Bool) : Prop := s.isOpen "bool" = true ∧ SpellsBool s.text b

theorem toNat?_scalar {v : Value} {s : Scalar} (h : v.content = .scalar s) (n : Nat) :
    v.toNat? = some n ↔ s.CarriesNat n ∧ n < Nat.pow 2 64 := by
  have hlimit : n ≤ 0xFFFFFFFFFFFFFFFF ↔ n < Nat.pow 2 64 := by
    rw [show Nat.pow 2 64 = 0xFFFFFFFFFFFFFFFF + 1 from rfl, Nat.lt_succ_iff]
  simp only [Value.toNat?, h, Scalar.CarriesNat]
  split
  · rename_i hopen
    rw [unsigned?_eq_some_iff, hlimit]
    simp [hopen]
  · rename_i hopen
    simp [hopen]

theorem Scalar.CarriesNat.unique {s : Scalar} {n m : Nat} (hn : s.CarriesNat n) (hm : s.CarriesNat m) : n = m := by
  have hread := (unsigned?_eq_some_iff (max n m) s.text.toList n).2 ⟨hn.2, Nat.le_max_left n m⟩
  rw [(unsigned?_eq_some_iff (max n m) s.text.toList m).2 ⟨hm.2, Nat.le_max_right n m⟩] at hread
  exact (Option.some.inj hread).symm

theorem toBool?_scalar {v : Value} {s : Scalar} (h : v.content = .scalar s) (b : Bool) :
    v.toBool? = some b ↔ s.CarriesBool b := by
  simp only [Value.toBool?, h, Scalar.CarriesBool]
  split
  · rename_i hopen
    rw [boolean?_eq_some_iff]
    simp [hopen]
  · rename_i hopen
    simp [hopen]

end ScriptTriage.Yaml

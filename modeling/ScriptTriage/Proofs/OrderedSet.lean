import ScriptTriage.OrderedSet

/-
Ordered sets against lists. Filling a set from a list leaves what `List.eraseDups` leaves: every element once, at its
first place (`toList_foldl_insert`). What the set held before stays in front, and what it did not hold follows in the
order of the list (`toList_foldl_insert_of_nodup`); repeats in the list make no difference (`foldl_insert_eraseDups`).
A map that tells all elements apart may be applied before or after (`eraseDups_map`).
-/

namespace ScriptTriage.OrderedSet

variable {α : Type}

theorem ext {s t : OrderedSet α} (h : s.toList = t.toList) : s = t := by
  cases s
  cases t
  cases h
  rfl

variable [DecidableEq α]

theorem eraseDups_of_nodup {l : List α} (h : l.Nodup) : l.eraseDups = l := by
  induction l with
  | nil => rfl
  | cons a l ih =>
    obtain ⟨ha, hl⟩ := List.nodup_cons.1 h
    have hkeep : l.filter (fun b => !b == a) = l := by
      refine List.filter_eq_self.2 fun b hb => ?_
      have hne : b ≠ a := fun hba => ha (hba ▸ hb)
      simpa using hne
    rw [List.eraseDups_cons, hkeep, ih hl]

theorem removeAll_cons_of_mem {a : α} {l seen : List α} (h : a ∈ seen) :
    (a :: l).removeAll seen = l.removeAll seen := by
  simp [List.removeAll, h]

theorem toList_foldl_insert (s : OrderedSet α) (l : List α) :
    (l.foldl insert s).toList = (s.toList ++ l).eraseDups := by
  induction l generalizing s with
  | nil => simp [eraseDups_of_nodup s.nodup]
  | cons a l ih =>
    rw [List.foldl_cons, ih, toList_insert]
    split
    · rename_i ha
      rw [List.eraseDups_append, List.eraseDups_append, removeAll_cons_of_mem ha]
    · rw [List.append_assoc, List.singleton_append]

theorem eraseDups_filter (p : α → Bool) (l : List α) : (l.filter p).eraseDups = l.eraseDups.filter p := by
  -- `eraseDups` goes on with a filtered tail, so the induction is on the length
  induction hn : l.length using Nat.strongRecOn generalizing l with
  | ind n ih =>
    subst hn
    cases l with
    | nil => rfl
    | cons a l =>
      have hrest := ih _ (Nat.lt_succ_of_le (List.length_filter_le _ l)) (l.filter fun b => !b == a) rfl
      rw [List.eraseDups_cons, List.filter_cons, List.filter_cons]
      by_cases ha : p a
      · have hcomm : (l.filter p).filter (fun b => !b == a) = (l.filter fun b => !b == a).filter p := by
          simp only [List.filter_filter, Bool.and_comm]
        rw [if_pos ha, if_pos ha, List.eraseDups_cons, ← hrest, hcomm]
      · have hsame : (l.filter fun b => !b == a).filter p = l.filter p := by
          rw [List.filter_filter]
          refine List.filter_congr fun b _ => ?_
          by_cases hb : b = a
          · simp [hb, ha]
          · simp [hb]
        rw [if_neg ha, if_neg ha, ← hrest, hsame]

theorem eraseDups_map {β : Type} [DecidableEq β] {f : α → β} (hf : ∀ a b, f a = f b ↔ a = b) (l : List α) :
    (l.map f).eraseDups = l.eraseDups.map f := by
  induction hn : l.length using Nat.strongRecOn generalizing l with
  | ind n ih =>
    subst hn
    cases l with
    | nil => rfl
    | cons a l =>
      have hrest := ih _ (Nat.lt_succ_of_le (List.length_filter_le _ l)) (l.filter fun b => !b == a) rfl
      have hsame : (l.map f).filter (fun b => !b == f a) = (l.filter fun b => !b == a).map f := by
        rw [List.filter_map]
        congr 2
        funext b
        rw [Function.comp_apply, Bool.eq_iff_iff]
        simp only [Bool.not_eq_true', beq_eq_false_iff_ne, ne_eq, hf]
      rw [List.map_cons, List.eraseDups_cons, hsame, hrest, List.eraseDups_cons, List.map_cons]

theorem toList_foldl_insert_eq_append (s : OrderedSet α) (l : List α) :
    (l.foldl insert s).toList = s.toList ++ l.eraseDups.filter (fun a => a ∉ s.toList) := by
  rw [toList_foldl_insert, List.eraseDups_append, eraseDups_of_nodup s.nodup, List.removeAll, eraseDups_filter]
  simp

theorem toList_foldl_insert_of_nodup (s : OrderedSet α) {l : List α} (h : l.Nodup) :
    (l.foldl insert s).toList = s.toList ++ l.filter (fun a => a ∉ s.toList) := by
  rw [toList_foldl_insert_eq_append, eraseDups_of_nodup h]

theorem toList_ofList (l : List α) : (ofList l).toList = l.eraseDups := toList_foldl_insert empty l

theorem nodup_eraseDups (l : List α) : l.eraseDups.Nodup := by
  rw [← toList_ofList]
  exact (ofList l).nodup

theorem foldl_insert_of_subset {s : OrderedSet α} {l : List α} (h : l ⊆ s.toList) : l.foldl insert s = s := by
  have hnone : l.eraseDups.filter (fun a => a ∉ s.toList) = [] := by
    refine List.filter_eq_nil_iff.2 fun a ha => ?_
    have hmem : a ∈ s.toList := h (List.mem_eraseDups.1 ha)
    simpa using hmem
  apply ext
  rw [toList_foldl_insert_eq_append, hnone, List.append_nil]

theorem foldl_insert_eraseDups (s : OrderedSet α) (l : List α) : l.eraseDups.foldl insert s = l.foldl insert s := by
  apply ext
  rw [toList_foldl_insert_of_nodup s (nodup_eraseDups l), toList_foldl_insert_eq_append]

end ScriptTriage.OrderedSet

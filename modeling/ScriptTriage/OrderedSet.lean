/-
Sets that remember the order in which their elements were first seen. Every list of findings, and the registry
that several analyses share, is such a set: a repeated element changes nothing, and a new one goes to the end.
-/

namespace ScriptTriage

/-- a list without repeats, in the order in which the elements arrived -/
structure OrderedSet (α : Type) where
  toList : List α
  nodup : toList.Nodup := by simp

namespace OrderedSet

variable {α : Type}

def empty : OrderedSet α := { toList := [] }

instance : EmptyCollection (OrderedSet α) := ⟨empty⟩

instance : Inhabited (OrderedSet α) := ⟨empty⟩

def size (s : OrderedSet α) : Nat := s.toList.length

def isEmpty (s : OrderedSet α) : Bool := s.toList.isEmpty

@[simp] theorem toList_empty : (empty : OrderedSet α).toList = [] := rfl

variable [DecidableEq α]

def contains (s : OrderedSet α) (a : α) : Bool := decide (a ∈ s.toList)

/-- put an element at the end, unless it is there already -/
def insert (s : OrderedSet α) (a : α) : OrderedSet α :=
  if h : a ∈ s.toList then s
  else
    { toList := s.toList ++ [a]
      nodup := by
        refine List.nodup_append.2 ⟨s.nodup, by simp, ?_⟩
        intro x hx y hy hxy
        rw [List.mem_singleton] at hy
        exact h (hy ▸ hxy ▸ hx) }

/-- the elements of a list, each at its first place -/
def ofList (l : List α) : OrderedSet α := l.foldl insert empty

theorem toList_insert (s : OrderedSet α) (a : α) :
    (s.insert a).toList = if a ∈ s.toList then s.toList else s.toList ++ [a] := by
  unfold insert
  split <;> simp_all

@[simp] theorem contains_iff (s : OrderedSet α) (a : α) : s.contains a = true ↔ a ∈ s.toList := by
  simp [contains]

end OrderedSet

end ScriptTriage

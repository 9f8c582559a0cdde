import Mathlib.Data.List.Induction
import Mathlib.Data.List.Nodup
import ScriptTriage.Proofs.Walk.Sink

/-
Walks that share a registry. Any number of walks run at once; the registry serves one call at a time, and nothing is
said about whose call comes next. A schedule is the order in which the walks get the lock.

A walk in progress is known by the answers it has had: walking again under these answers shows the call it makes next.
So the calls of a walk are not fixed in advance, and could depend on what the other walks have put in.

- `next?_eq`: they do not. Whatever the answers, a walk offers the candidates of its trace in order.
- `inv_step`, `inv_run`: behind every call, the registry holds what it held at first and what was offered; each walk has
  made a first part of its calls; and the answers "new" for a candidate are as many as its places in the registry that
  were not there at first.
- `finished_run_iff`: walks finish if they get the lock often enough.
- `run_alone`: a walk that is alone with the registry is the walk of the program.
- `registry_of_finished`: when all walks have finished, nothing was lost and nothing is there twice, in whatever order
  they came.
-/

namespace ScriptTriage

/-! ## Walks in progress -/

/-- a program to walk, and the least length of its candidates -/
structure Task where
  leastLength : Nat
  body : List Node

namespace Task

/-- the findings and the calls of a walk whose first calls are answered so -/
def walk (t : Task) (answers : List Bool) : Findings × List Candidate :=
  Walk.program ⟨t.leastLength, .oracle fun n => .ok (answers.getD n false)⟩ t.body []

/-- the candidate that the walk offers when its calls so far were answered so; none if it has finished -/
def next? (t : Task) (answers : List Bool) : Option Candidate := (t.walk answers).2[answers.length]?

/-- the candidates in the order in which the walk meets them -/
def offers (t : Task) : List Candidate := Trace.candidates t.leastLength t.body

theorem next?_eq (t : Task) (answers : List Bool) : t.next? answers = t.offers[answers.length]? := by
  rw [next?, walk, Walk.program_oracle, offers]

theorem mem_candidates_walk (t : Task) (answers : List Bool) (c : Candidate) :
    c ∈ (t.walk answers).1.candidates ↔ c ∈ t.offers := by
  rw [walk, Walk.program_oracle, Walk.candidates_findings, List.mem_eraseDups, offers]

end Task

namespace Interleaving

/-! ## The walks and their registry -/

/-- a call that got the lock: whose call it was, the candidate, and whether the registry found it new -/
structure Call (ι : Type) where
  walk : ι
  candidate : Candidate
  isNew : Bool

/-- the registry, and the calls so far in the order in which they got the lock -/
structure State (ι : Type) where
  registry : Registry
  calls : List (Call ι) := []

variable {ι : Type}

namespace State

/-- how often the registry found a candidate new -/
def news (s : State ι) (c : Candidate) : Nat := s.calls.countP fun k => k.candidate = c && k.isNew

/-- a walk adds a candidate, with nobody in between -/
def call (s : State ι) (i : ι) (c : Candidate) : State ι :=
  { registry := (Registry.add c s.registry).2
    calls := s.calls ++ [⟨i, c, (Registry.add c s.registry).1⟩] }

/-- the registry says "new" exactly if the candidate gets a place of its own -/
theorem news_call (s : State ι) (i : ι) (c c' : Candidate) :
    (s.call i c).news c' + s.registry.toList.count c' = s.news c' + (s.call i c).registry.toList.count c' := by
  have hnews : (s.call i c).news c' =
      s.news c' + if c = c' ∧ (Registry.add c s.registry).1 = true then 1 else 0 := by
    simp [call, news, List.countP_append, List.countP_singleton]
  have hcount : (s.call i c).registry.toList.count c' =
      s.registry.toList.count c' + if c = c' ∧ (Registry.add c s.registry).1 = true then 1 else 0 := by
    by_cases hold : c ∈ s.registry.toList
    · simp [call, Registry.add, OrderedSet.toList_insert, OrderedSet.contains, hold]
    · simp [call, Registry.add, OrderedSet.toList_insert, OrderedSet.contains, hold, List.count_singleton]
  omega

variable [DecidableEq ι]

def callsOf (s : State ι) (i : ι) : List (Call ι) := s.calls.filter (·.walk = i)

def answers (s : State ι) (i : ι) : List Bool := (s.callsOf i).map (·.isNew)

theorem callsOf_call (s : State ι) (i j : ι) (c : Candidate) :
    ((s.call i c).callsOf j).map (·.candidate) =
      (s.callsOf j).map (·.candidate) ++ if i = j then [c] else [] := by
  by_cases hij : i = j <;> simp [call, callsOf, hij]

end State

variable [DecidableEq ι]

/-- give the lock to a walk: it makes its next call, if it has one -/
def step (tasks : ι → Task) (s : State ι) (i : ι) : State ι :=
  match (tasks i).next? (s.answers i) with
  | some c => s.call i c
  | none => s

/-- give the lock to one walk after the other -/
def run (tasks : ι → Task) (s : State ι) (schedule : List ι) : State ι := schedule.foldl (step tasks) s

/-- no walk has a call left -/
def Finished (tasks : ι → Task) (s : State ι) : Prop := ∀ i, (tasks i).next? (s.answers i) = none

/-- the findings of a walk under the answers that it has had -/
def findings (tasks : ι → Task) (s : State ι) (i : ι) : Findings := ((tasks i).walk (s.answers i)).1

theorem run_snoc (tasks : ι → Task) (s : State ι) (schedule : List ι) (i : ι) :
    run tasks s (schedule ++ [i]) = step tasks (run tasks s schedule) i := by
  simp [run]

/-! ## The invariant -/

/-- what holds behind every call when the registry held `r` at first and the walks had the lock `turns` times -/
structure Inv (tasks : ι → Task) (r : Registry) (turns : ι → Nat) (s : State ι) : Prop where
  registry_eq : s.registry = (s.calls.map (·.candidate)).foldl OrderedSet.insert r
  calls_eq : ∀ i, (s.callsOf i).map (·.candidate) = (tasks i).offers.take (turns i)
  news_add : ∀ c, s.news c + r.toList.count c = s.registry.toList.count c

theorem inv_start (tasks : ι → Task) (r : Registry) : Inv tasks r (fun _ => 0) { registry := r } where
  registry_eq := rfl
  calls_eq _ := rfl
  news_add c := by simp [State.news]

section Step

variable {tasks : ι → Task} {r : Registry} {turns : ι → Nat} {s : State ι}

theorem next?_of_inv (h : Inv tasks r turns s) (i : ι) :
    (tasks i).next? (s.answers i) = (tasks i).offers[turns i]? := by
  have hlen : (s.answers i).length = min (turns i) (tasks i).offers.length := by
    have hcalls := congrArg List.length (h.calls_eq i)
    simpa [State.answers] using hcalls
  rw [Task.next?_eq, hlen]
  rcases Nat.lt_or_ge (turns i) (tasks i).offers.length with hlt | hge
  · rw [Nat.min_eq_left (Nat.le_of_lt hlt)]
  · rw [Nat.min_eq_right hge, List.getElem?_eq_none (Nat.le_refl _), List.getElem?_eq_none hge]

theorem inv_call (h : Inv tasks r turns s) {i : ι} {c : Candidate} (hc : (tasks i).offers[turns i]? = some c) :
    Inv tasks r (fun j => turns j + if i = j then 1 else 0) (s.call i c) := by
  refine ⟨?_, fun j => ?_, fun c' => ?_⟩
  · rw [State.call, List.map_append, List.foldl_append, ← h.registry_eq]
    rfl
  · rw [State.callsOf_call, h.calls_eq j]
    by_cases hij : i = j
    · subst hij
      rw [if_pos rfl, if_pos rfl, List.take_add_one, hc]
      rfl
    · rw [if_neg hij, if_neg hij, Nat.add_zero, List.append_nil]
  · have hcall := s.news_call i c c'
    have hnews := h.news_add c'
    omega

theorem inv_step (h : Inv tasks r turns s) (i : ι) :
    Inv tasks r (fun j => turns j + if i = j then 1 else 0) (step tasks s i) := by
  unfold step
  rw [next?_of_inv h i]
  cases hc : (tasks i).offers[turns i]? with
  | some c => exact inv_call h hc
  | none =>
    -- the walk has finished, and giving it the lock once more changes nothing
    refine ⟨h.registry_eq, fun j => ?_, h.news_add⟩
    rw [h.calls_eq j]
    by_cases hij : i = j
    · subst hij
      rw [if_pos rfl, List.take_add_one, hc, Option.toList_none, List.append_nil]
    · rw [if_neg hij, Nat.add_zero]

theorem inv_run (tasks : ι → Task) (r : Registry) (schedule : List ι) :
    Inv tasks r (fun i => schedule.count i) (run tasks { registry := r } schedule) := by
  induction schedule using List.reverseRecOn with
  | nil => exact inv_start tasks r
  | append_singleton schedule i ih =>
    have hturns : (fun j => (schedule ++ [i]).count j) = fun j => schedule.count j + if i = j then 1 else 0 := by
      funext j
      simp [List.count_append, List.count_singleton]
    rw [run_snoc, hturns]
    exact inv_step ih i

end Step

/-! ## All walks have finished -/

theorem finished_run_iff (tasks : ι → Task) (r : Registry) (schedule : List ι) :
    Finished tasks (run tasks { registry := r } schedule) ↔ ∀ i, (tasks i).offers.length ≤ schedule.count i := by
  unfold Finished
  refine forall_congr' fun i => ?_
  rw [next?_of_inv (inv_run tasks r schedule) i, List.getElem?_eq_none_iff]

/-- a walk that shares the registry with nobody does to it, and finds, what a walk of the program does -/
theorem run_alone (t : Task) (r : Registry) {turns : Nat} (hturns : t.offers.length ≤ turns) :
    let last := run (fun _ : Unit => t) { registry := r } (List.replicate turns ())
    (findings (fun _ => t) last (), last.registry) = Walk.program ⟨t.leastLength, .registry⟩ t.body r := by
  intro last
  have hinv : Inv (fun _ => t) r (fun i => (List.replicate turns ()).count i) last := inv_run _ r _
  have hcalls : last.calls.map (·.candidate) = t.offers := by
    have hown := hinv.calls_eq ()
    rw [List.count_replicate_self, List.take_of_length_le hturns] at hown
    simpa [State.callsOf] using hown
  refine Prod.ext ?_ ?_
  · rw [findings, Task.walk, Walk.program_oracle, Walk.findings_program]
  · rw [Walk.sink_program, hinv.registry_eq, hcalls]
    rfl

theorem exists_call_iff {tasks : ι → Task} {r : Registry} {turns : ι → Nat} {s : State ι} (h : Inv tasks r turns s)
    (hturns : ∀ i, (tasks i).offers.length ≤ turns i) (c : Candidate) :
    c ∈ s.calls.map (·.candidate) ↔ ∃ i, c ∈ (tasks i).offers := by
  have hcalls : ∀ i, (s.callsOf i).map (·.candidate) = (tasks i).offers := fun i => by
    rw [h.calls_eq i, List.take_of_length_le (hturns i)]
  constructor
  · intro hc
    obtain ⟨k, hk, rfl⟩ := List.mem_map.1 hc
    refine ⟨k.walk, ?_⟩
    rw [← hcalls k.walk]
    exact List.mem_map_of_mem (List.mem_filter.2 ⟨hk, by simp⟩)
  · rintro ⟨i, hi⟩
    rw [← hcalls i] at hi
    obtain ⟨k, hk, rfl⟩ := List.mem_map.1 hi
    exact List.mem_map_of_mem (List.mem_filter.1 hk).1

/-- **Nothing is lost and nothing is there twice.** Any walks share a registry with any contents, and get the lock in
any order until all have finished. Then the registry has no repeats, still starts with what it held, and holds besides
exactly what the walks report. A candidate that some walk reports was found new by exactly one call of all walks, unless
the registry held it at first; then by none. -/
theorem registry_of_finished (tasks : ι → Task) (r : Registry) (schedule : List ι)
    (hdone : Finished tasks (run tasks { registry := r } schedule)) :
    let last := run tasks { registry := r } schedule
    last.registry.toList.Nodup ∧ r.toList <+: last.registry.toList ∧
      (∀ c, c ∈ last.registry.toList ↔ c ∈ r.toList ∨ ∃ i, c ∈ (findings tasks last i).candidates) ∧
      (∀ c, c ∉ r.toList → (∃ i, c ∈ (findings tasks last i).candidates) → last.news c = 1) ∧
      ∀ c ∈ r.toList, last.news c = 0 := by
  intro last
  have hinv : Inv tasks r (fun i => schedule.count i) last := inv_run tasks r schedule
  have hmem : ∀ c, c ∈ last.registry.toList ↔ c ∈ r.toList ∨ ∃ i, c ∈ (findings tasks last i).candidates := by
    intro c
    have hcall := exists_call_iff hinv ((finished_run_iff tasks r schedule).1 hdone) c
    simp only [findings, Task.mem_candidates_walk]
    rw [← hcall, hinv.registry_eq, OrderedSet.toList_foldl_insert, List.mem_eraseDups, List.mem_append]
  refine ⟨last.registry.nodup, ?_, hmem, fun c hnew hfound => ?_, fun c hold => ?_⟩
  · rw [hinv.registry_eq, OrderedSet.toList_foldl_insert_eq_append]
    exact List.prefix_append _ _
  · have hnews := hinv.news_add c
    rw [List.count_eq_zero_of_not_mem hnew,
      List.count_eq_one_of_mem last.registry.nodup ((hmem c).2 (Or.inr hfound))] at hnews
    exact hnews
  · have hnews := hinv.news_add c
    rw [List.count_eq_one_of_mem r.nodup hold,
      List.count_eq_one_of_mem last.registry.nodup ((hmem c).2 (Or.inl hold))] at hnews
    omega

/-! ### Two walks at work -/

/-- a statement that is a string literal -/
def quoted (text : String) : Node := .literal ⟨.string text, none, none⟩

/-- one walk meets `ab`, `cd` and `ab` again, the other `cd` and `ef` -/
def twoTasks : Bool → Task
  | true => ⟨2, [quoted "ab", quoted "cd", quoted "ab"]⟩
  | false => ⟨2, [quoted "cd", quoted "ef"]⟩

/-- the walks take turns over a registry that holds `ef` -/
def takingTurns : State Bool :=
  run twoTasks { registry := .ofList [.ofString "ef"] } [true, false, true, false, true]

/-- all calls are made, and the second walk is the first to add `cd` -/
theorem registry_of_finished_takingTurns :
    Finished twoTasks takingTurns ∧ takingTurns.news (.ofString "cd") = 1 ∧ takingTurns.news (.ofString "ef") = 0 ∧
      takingTurns.registry.toList = [.ofString "ef", .ofString "ab", .ofString "cd"] := by
  have hdone : Finished twoTasks takingTurns := by
    rw [takingTurns, finished_run_iff]
    decide
  obtain ⟨-, -, -, hfound, hheld⟩ := registry_of_finished twoTasks (.ofList [.ofString "ef"]) _ hdone
  exact ⟨hdone, hfound _ (by decide) ⟨true, by decide⟩, hheld _ (by decide), by decide⟩

end Interleaving

end ScriptTriage

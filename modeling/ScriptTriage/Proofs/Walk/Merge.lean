import ScriptTriage.Proofs.Walk.Site

/-
Walking one list of statements after another. Whatever a walk has found already stays where it is, and what the next
statements bring that is new follows in their order.

- `Findings.merge`: findings in front, followed by what other findings have besides.
- `finish_foldl_see_merge`, `finish_visitAll`: from any state of the collector, a walk merges in what it would find alone.
- `ofEvents_repeat`: events that were seen before change nothing.
- `findings_merge`: so a walk over two lists, in one call or in two, merges what it finds in each; nothing is listed
  twice, longer programs only add at the end, and a repeated statement adds nothing.
-/

namespace ScriptTriage

namespace Findings

/-- the first findings, followed by those of the second that are not among them -/
def merge (f g : Findings) : Findings :=
  { bindings := f.bindings ++ g.bindings.filter (fun b => b ∉ f.bindings)
    valueAssignments := f.valueAssignments ++ g.valueAssignments.filter (fun v => v ∉ f.valueAssignments)
    breakpoints := f.breakpoints ++ g.breakpoints.filter (fun b => b ∉ f.breakpoints)
    candidates := f.candidates ++ g.candidates.filter (fun c => c ∉ f.candidates) }

/-- nothing is listed twice -/
structure NoRepeats (f : Findings) : Prop where
  bindings : f.bindings.Nodup
  valueAssignments : f.valueAssignments.Nodup
  breakpoints : f.breakpoints.Nodup
  candidates : f.candidates.Nodup

/-- each list of the second starts with that of the first -/
structure Begins (f g : Findings) : Prop where
  bindings : f.bindings <+: g.bindings
  valueAssignments : f.valueAssignments <+: g.valueAssignments
  breakpoints : f.breakpoints <+: g.breakpoints
  candidates : f.candidates <+: g.candidates

theorem begins_merge (f g : Findings) : f.Begins (f.merge g) :=
  ⟨List.prefix_append _ _, List.prefix_append _ _, List.prefix_append _ _, List.prefix_append _ _⟩

end Findings

namespace Collector

theorem noRepeats_finish (c : Collector) : c.finish.NoRepeats :=
  ⟨c.bindings.nodup, c.valueAssignments.nodup, c.breakpoints.nodup, c.candidates.nodup⟩

theorem finish_foldl_see_merge (c : Collector) (es : List Event) :
    (es.foldl Collector.see c).finish = c.finish.merge (Findings.ofEvents es) := by
  have hpart : ∀ {α : Type} [DecidableEq α] (field : Collector → OrderedSet α) (part : Event → Option α)
      (_ : ∀ c e, field (c.see e) = (part e).elim (field c) (field c).insert),
      (field (es.foldl Collector.see c)).toList =
        (field c).toList ++ (es.filterMap part).eraseDups.filter (fun a => a ∉ (field c).toList) := by
    intro α _ field part h
    rw [foldl_see_eq_foldl_insert field part h, OrderedSet.toList_foldl_insert_eq_append]
  unfold finish Findings.merge Findings.ofEvents
  congr 1
  · exact hpart (·.bindings) Event.binding? (fun c e => by cases e <;> rfl)
  · exact hpart (·.valueAssignments) Event.valueAssignment? (fun c e => by cases e <;> rfl)
  · exact hpart (·.breakpoints) Event.breakpoint? (fun c e => by cases e <;> rfl)
  · exact hpart (·.candidates) Event.candidate? (fun c e => by cases e <;> rfl)

end Collector

theorem Findings.ofEvents_repeat {es seen : List Event} (h : seen ⊆ es) (rest : List Event) :
    Findings.ofEvents (es ++ seen ++ rest) = Findings.ofEvents (es ++ rest) := by
  have hpart : ∀ {α : Type} [DecidableEq α] (part : Event → Option α),
      ((es ++ seen ++ rest).filterMap part).eraseDups = ((es ++ rest).filterMap part).eraseDups := by
    intro α _ part
    have hseen : seen.filterMap part ⊆ (OrderedSet.ofList (es.filterMap part)).toList := by
      intro a ha
      obtain ⟨e, he, hea⟩ := List.mem_filterMap.1 ha
      rw [OrderedSet.toList_ofList, List.mem_eraseDups]
      exact List.mem_filterMap.2 ⟨e, h he, hea⟩
    simp only [List.filterMap_append, ← OrderedSet.toList_ofList, OrderedSet.ofList, List.foldl_append]
    rw [← OrderedSet.ofList, OrderedSet.foldl_insert_of_subset hseen]
  unfold Findings.ofEvents
  rw [hpart, hpart, hpart, hpart]

namespace Walk

variable {σ : Type}

theorem visitAll_append (cfg : WalkConfig σ) (scope : Scope) (a b : List Node) (s : WalkState σ) :
    visitAll cfg scope (a ++ b) s = visitAll cfg scope b (visitAll cfg scope a s) := by
  induction a generalizing s with
  | nil => rfl
  | cons n a ih => rw [List.cons_append, visitAll, visitAll, ih]

theorem finish_visitAll (cfg : WalkConfig σ) (scope : Scope) (body : List Node) (s : WalkState σ) (state : σ) :
    (visitAll cfg scope body s).collector.finish = s.collector.finish.merge (walks cfg [(scope, body)] state).1 := by
  rw [visitAll_eq_foldl_see, collector_foldl_see, Collector.finish_foldl_see_merge, findings_walk]

/-- a statement that stands at a site a second time brings no event that was not seen before -/
theorem findings_repeat (cfg : WalkConfig σ) (scope : Scope) (site : Site) (before between after : List Node)
    (n : Node) (state : σ) :
    (walks cfg [(scope, site.plug (before ++ n :: between ++ n :: after))] state).1 =
      (walks cfg [(scope, site.plug (before ++ n :: between ++ after))] state).1 := by
  obtain ⟨opening, ending, hplug⟩ := Trace.exists_ofNodes_plug cfg.leastLength scope site
  let events := Trace.ofNodes cfg.leastLength (site.scope scope)
  have hseen : events [n] ⊆ opening ++ events (before ++ n :: between) := by
    intro e he
    have hn : n :: between = [n] ++ between := rfl
    simp only [events, hn, Trace.ofNodes_append, List.mem_append]
    exact Or.inr (Or.inr (Or.inl he))
  have hsplit : ∀ tail, Trace.ofNodes cfg.leastLength scope (site.plug (before ++ n :: between ++ tail)) =
      opening ++ events (before ++ n :: between) ++ (events tail ++ ending) := by
    intro tail
    rw [hplug, Trace.ofNodes_append]
    simp only [events, List.append_assoc]
  have htail : events (n :: after) = events [n] ++ events after := Trace.ofNodes_append _ _ [n] after
  rw [findings_walk, findings_walk, hsplit, hsplit, htail, List.append_assoc (events [n]), ← List.append_assoc]
  exact Findings.ofEvents_repeat hseen _

/-- **Walks compose by ordered merge.** For every scope, walking `a ++ b` in one call, or `a` and then `b` in two calls
of which each may have its own scope, gives what is found in `a`, followed by what is found in `b` and not in `a`. So no
list has repeats, what is found in a program comes first in what is found in every extension of it, and a statement that
is repeated later in its list, at whatever depth, changes nothing. -/
theorem findings_merge (cfg : WalkConfig σ) (state : σ) (scope : Scope) (a b : List Node) :
    let found (calls : List (Scope × List Node)) : Findings := (walks cfg calls state).1
    found [(scope, a ++ b)] = (found [(scope, a)]).merge (found [(scope, b)]) ∧
      (∀ scope', found [(scope, a), (scope', b)] = (found [(scope, a)]).merge (found [(scope', b)])) ∧
      (found [(scope, a)]).NoRepeats ∧
      (found [(scope, a)]).Begins (found [(scope, a ++ b)]) ∧
      ∀ (site : Site) (before between after : List Node) (n : Node),
        found [(scope, site.plug (before ++ n :: between ++ n :: after))] =
          found [(scope, site.plug (before ++ n :: between ++ after))] := by
  intro found
  have htwo : ∀ scope', found [(scope, a), (scope', b)] = (found [(scope, a)]).merge (found [(scope', b)]) :=
    fun scope' => finish_visitAll cfg scope' b (visitAll cfg scope a (start state)) state
  have hone : found [(scope, a ++ b)] = found [(scope, a), (scope, b)] :=
    congrArg (·.collector.finish) (visitAll_append cfg scope a b (start state))
  have hmerge : found [(scope, a ++ b)] = (found [(scope, a)]).merge (found [(scope, b)]) := hone.trans (htwo scope)
  refine ⟨hmerge, htwo, Collector.noRepeats_finish _, ?_, ?_⟩
  · rw [hmerge]
    exact Findings.begins_merge _ _
  · intro site before between after n
    exact findings_repeat cfg scope site before between after n state

end Walk

end ScriptTriage

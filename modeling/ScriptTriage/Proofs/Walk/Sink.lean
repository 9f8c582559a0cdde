import ScriptTriage.Proofs.Walk.Trace

/-
What a walk does with its sink. Every candidate that the walk meets is offered to the sink, repeats included, and the
walk goes on as if nobody had answered.

- `sink_program`: behind a walk, the sink is in the state in which being offered the candidates of the trace leaves it.
- `findings_program`, `candidates_findings`: the findings are those of a walk without a sink, and list the candidates
  that were offered, each at its first place.
- `findings_regardless_of_sink`: so no sink has a say in the findings, nor in what it is offered next.
-/

namespace ScriptTriage

/-- the candidates of a program in the order in which a walk meets them, repeats included -/
def Trace.candidates (least : Nat) (body : List Node) : List Candidate :=
  (ofNodes least .global body).filterMap Event.candidate?

/-- the state of a sink that was offered candidates one after the other -/
def Sink.offerAll {σ : Type} (sink : Sink σ) (state : σ) (cs : List Candidate) : σ :=
  cs.foldl (fun s c => (sink.add c s).2) state

/-- the sink whose `n`-th answer is `answers n`, whatever it is offered; it remembers the offers -/
def Sink.oracle (answers : Nat → Except Refusal Bool) : Sink (List Candidate) :=
  ⟨fun c offers => (answers offers.length, offers ++ [c])⟩

theorem Sink.offerAll_oracle (answers : Nat → Except Refusal Bool) (offers cs : List Candidate) :
    (Sink.oracle answers).offerAll offers cs = offers ++ cs := by
  induction cs generalizing offers with
  | nil => simp [offerAll]
  | cons c cs ih =>
    rw [offerAll, List.foldl_cons, ← offerAll, ih]
    simp [oracle]

namespace Walk

variable {σ : Type}

theorem sink_foldl_see (cfg : WalkConfig σ) (es : List Event) (s : WalkState σ) :
    (es.foldl (see cfg) s).sink = cfg.sink.offerAll s.sink (es.filterMap Event.candidate?) := by
  induction es generalizing s with
  | nil => rfl
  | cons e es ih =>
    rw [List.foldl_cons, ih]
    cases e <;> rfl

theorem sink_program (cfg : WalkConfig σ) (body : List Node) (state : σ) :
    (program cfg body state).2 = cfg.sink.offerAll state (Trace.candidates cfg.leastLength body) := by
  have hwalk : (program cfg body state).2 = (visitAll cfg .global body (start state)).sink := rfl
  rw [hwalk, visitAll_eq_foldl_see, sink_foldl_see]
  rfl

theorem findings_program (cfg : WalkConfig σ) (body : List Node) (state : σ) :
    (program cfg body state).1 = findings cfg.leastLength body := by
  rw [findings, program, program, findings_walk, findings_walk]

theorem candidates_findings (least : Nat) (body : List Node) :
    (findings least body).candidates = (Trace.candidates least body).eraseDups := by
  rw [findings, program, findings_walk]
  rfl

theorem program_oracle (least : Nat) (answers : Nat → Except Refusal Bool) (body : List Node) :
    program ⟨least, .oracle answers⟩ body [] = (findings least body, Trace.candidates least body) := by
  refine Prod.ext (findings_program _ body []) ?_
  rw [sink_program, Sink.offerAll_oracle, List.nil_append]

/-- **No sink has a say.** For every program, least length and sink in any state, be it absent, a registry with any
contents or anything else, the walk finds what it finds without a sink. If each offer is accepted, declined as known or
refused at will, then still every candidate that the walk meets is offered, in order, and the findings list all that
was offered. -/
theorem findings_regardless_of_sink (leastLength : Nat) (sink : Sink σ) (body : List Node) (state : σ)
    (answers : Nat → Except Refusal Bool) :
    (program ⟨leastLength, sink⟩ body state).1 = findings leastLength body ∧
      program ⟨leastLength, .oracle answers⟩ body [] =
        (findings leastLength body, Trace.candidates leastLength body) ∧
      (findings leastLength body).candidates = (Trace.candidates leastLength body).eraseDups :=
  ⟨findings_program _ body state, program_oracle leastLength answers body, candidates_findings leastLength body⟩

end Walk

end ScriptTriage

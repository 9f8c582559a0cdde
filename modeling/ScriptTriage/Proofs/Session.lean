import ScriptTriage.Proofs.Walk.Sink
import ScriptTriage.Session

/-
The registry of a session. Whatever a session is asked, its registry only grows at the end, and by what it was brought
and did not hold: an added candidate, or the candidates that an analysis attached to it reports.

- `parse_eq_error_iff`: reading fails in three ways: the reader gives up, it crashes, or the analyzer rejects the tree.
- `registry_analyze`: an analysis puts the candidates it reports into the registry. The walk offers repeats too, and
  keeps a list of its own; the two ordered sets agree on what is new.
- `registry_step`: the registry behind one request, for every request.
- `registry_after`: the registry behind a whole session holds what the requests brought, each at its first place.
- `registry_history`: the law of the registry at every step of a session that starts with an empty one.
-/

namespace ScriptTriage

/-! ## Analyses -/

namespace Analyzer

variable (read : ScriptReader)

/-- what the analyzer finds in a script if no sink listens -/
def findings (a : Analyzer) (source : String) : Findings := (a.analyze read Sink.none source ()).1

/-- a strict analyzer rejects a script that is not well formed -/
def Rejects (a : Analyzer) (source : String) : Prop :=
  ∃ tree, read source = .tree tree ∧ a.options.strict = true ∧ tree.hasErrors = true

/-- the script is not read: the reader gives up or crashes, or the analyzer rejects what it gives -/
def Refuses (a : Analyzer) (source : String) : Prop :=
  read source = .noTree ∨ read source = .crash ∨ a.Rejects read source

theorem create_of_valid {o : Options} (h : o.Valid) (context : Option String) :
    create o context = .ok { options := o, valid := h, context } := by
  unfold create
  split
  · rename_i fault hfault
    rw [o.fault?_eq_none_iff.2 h] at hfault
    cases hfault
  · rfl

theorem accept_eq_error_iff (a : Analyzer) (p : Program) (failure : Failure) :
    a.accept p = .error failure ↔ (a.options.strict = true ∧ p.hasErrors = true) ∧ failure = .syntaxErrors := by
  unfold accept
  cases p.hasErrors <;> cases a.options.strict <;> simp [eq_comm]

/-- a failure of parsing tells which of the three ways it was -/
theorem parse_eq_error_iff (a : Analyzer) (source : String) (failure : Failure) :
    a.parse source read = .error failure ↔
      (read source = .noTree ∧ failure = .noTree) ∨ (read source = .crash ∧ failure = .crash) ∨
        (a.Rejects read source ∧ failure = .syntaxErrors) := by
  unfold parse Rejects
  cases read source with
  | tree tree => simp [accept_eq_error_iff, SyntaxTree.lower]
  | noTree => simpa using eq_comm
  | crash => simpa using eq_comm

theorem refuses_iff (a : Analyzer) (source : String) :
    a.Refuses read source ↔ ∃ failure, a.parse source read = .error failure := by
  simp only [parse_eq_error_iff, Refuses, exists_or, exists_and_left, exists_eq, and_true]

theorem findings_of_refuses {a : Analyzer} {source : String} (h : a.Refuses read source) :
    a.findings read source = {} := by
  obtain ⟨failure, hparse⟩ := (refuses_iff read a source).1 h
  rw [findings, analyze, hparse]

theorem findings_analyze {σ : Type} (a : Analyzer) (sink : Sink σ) (source : String) (state : σ) :
    (a.analyze read sink source state).1 = a.findings read source := by
  unfold findings analyze
  cases a.parse source read with
  | ok p => rw [Walk.findings_program, Walk.findings_program]
  | error _ => rfl

theorem nodup_candidates_findings (a : Analyzer) (source : String) : (a.findings read source).candidates.Nodup := by
  rw [findings, analyze]
  cases a.parse source read with
  | ok p =>
    rw [Walk.findings_program, Walk.candidates_findings]
    exact OrderedSet.nodup_eraseDups _
  | error _ => exact List.nodup_nil

theorem registry_analyze (a : Analyzer) (source : String) (r : Registry) :
    (a.analyze read Sink.registry source r).2 =
      (a.findings read source).candidates.foldl OrderedSet.insert r := by
  rw [findings, analyze, analyze]
  cases a.parse source read with
  | ok p =>
    rw [Walk.sink_program, Walk.findings_program, Walk.candidates_findings, OrderedSet.foldl_insert_eraseDups]
    rfl
  | error _ => rfl

end Analyzer

namespace Attached

variable (read : ScriptReader)

/-- what an analysis brings to the registry: its candidates if it is attached to the registry, else nothing -/
def brings (a : Attached) (source : String) : List Candidate :=
  if a.attachment = .shared then (a.analyzer.findings read source).candidates else []

theorem analyze_eq (a : Attached) (source : String) (r : Registry) :
    a.analyze read source r = (a.analyzer.findings read source, (a.brings read source).foldl OrderedSet.insert r) := by
  obtain ⟨analyzer, attachment⟩ := a
  cases attachment with
  | detached => rfl
  | shared => exact Prod.ext (analyzer.findings_analyze read _ source r) (analyzer.registry_analyze read source r)
  | refused => exact Prod.ext (analyzer.findings_analyze read _ source ()) rfl

theorem nodup_brings (a : Attached) (source : String) : (a.brings read source).Nodup := by
  unfold brings
  split
  · exact a.analyzer.nodup_candidates_findings read source
  · exact List.nodup_nil

end Attached

/-! ## Sessions -/

namespace Session

def brings (s : Session) : Request → List Candidate
  | .add c => [c]
  | .analyze source => (s.current.map (·.brings s.read source)).getD []
  | _ => []

/-- the session behind a list of requests -/
def after (s : Session) (requests : List Request) : Session := requests.foldl (fun s r => (s.step r).2) s

def bringsAll (s : Session) : List Request → List Candidate
  | [] => []
  | r :: rs => s.brings r ++ (s.step r).2.bringsAll rs

theorem nodup_brings (s : Session) (request : Request) : (s.brings request).Nodup := by
  cases request with
  | add c => exact List.nodup_cons.2 ⟨List.not_mem_nil, List.nodup_nil⟩
  | analyze source =>
    unfold brings
    cases s.current with
    | some a => exact a.nodup_brings s.read source
    | none => exact List.nodup_nil
  | _ => exact List.nodup_nil

theorem registry_step (s : Session) (request : Request) :
    (s.step request).2.registry = (s.brings request).foldl OrderedSet.insert s.registry := by
  cases request with
  | create options attachment context =>
    unfold step
    dsimp only
    split <;> rfl
  | analyze source =>
    unfold step brings
    cases s.current with
    | some a => simp [Attached.analyze_eq]
    | none => rfl
  | parse source =>
    unfold step
    cases s.current <;> rfl
  | _ => rfl

theorem after_cons (s : Session) (r : Request) (rs : List Request) : s.after (r :: rs) = (s.step r).2.after rs := rfl

theorem registry_after (s : Session) (requests : List Request) :
    (s.after requests).registry = (s.bringsAll requests).foldl OrderedSet.insert s.registry := by
  induction requests generalizing s with
  | nil => rfl
  | cons r rs ih => rw [after_cons, ih, registry_step, bringsAll, List.foldl_append]

theorem read_step (s : Session) (request : Request) : (s.step request).2.read = s.read := by
  cases request with
  | create options attachment context =>
    unfold step
    dsimp only
    split <;> rfl
  | analyze source =>
    unfold step
    cases s.current <;> rfl
  | parse source =>
    unfold step
    cases s.current <;> rfl
  | _ => rfl

theorem read_after (s : Session) (requests : List Request) : (s.after requests).read = s.read := by
  induction requests generalizing s with
  | nil => rfl
  | cons r rs ih => rw [after_cons, ih, read_step]

theorem run_append (s : Session) (earlier later : List Request) :
    s.run (earlier ++ later) = s.run earlier ++ (s.after earlier).run later := by
  induction earlier generalizing s with
  | nil => rfl
  | cons r rs ih => exact congrArg (_ :: ·) (ih (s.step r).2)

/-- the second registry is the first with those of the candidates behind it that it did not hold -/
def Appends (r r' : Registry) (cs : List Candidate) : Prop := r'.toList = r.toList ++ cs.filter (· ∉ r.toList)

/-- the law of one step: what a request does to the registry, and what is answered -/
def StepLaw (s : Session) (answer : Answer) (next : Session) : Request → Prop
  | .add c => answer = .flag (!s.registry.contains c) ∧ Appends s.registry next.registry [c]
  | .analyze source =>
    (∀ a, s.current = some a →
      answer = .findings (a.analyzer.findings s.read source) ∧
      (a.attachment = .shared → Appends s.registry next.registry (a.analyzer.findings s.read source).candidates) ∧
      (a.attachment ≠ .shared → next.registry = s.registry) ∧
      (a.analyzer.Refuses s.read source → a.analyzer.findings s.read source = {} ∧ next.registry = s.registry)) ∧
    (s.current = none → next.registry = s.registry)
  | .create options attachment _ =>
    next.registry = s.registry ∧
    (options.Valid →
      ∃ a : Analyzer, a.options = options ∧ answer = .created a ∧ next.current = some ⟨a, attachment⟩)
  | .contains c => answer = .flag (s.registry.contains c) ∧ next.registry = s.registry
  | .snapshot => answer = .candidates s.registry.toList ∧ next.registry = s.registry
  | .parse _ => next.registry = s.registry

theorem appends_step (s : Session) (request : Request) :
    Appends s.registry (s.step request).2.registry (s.brings request) := by
  rw [Appends, registry_step]
  exact OrderedSet.toList_foldl_insert_of_nodup _ (s.nodup_brings request)

theorem registry_step_of_brings_nil {s : Session} {request : Request} (h : s.brings request = []) :
    (s.step request).2.registry = s.registry := by
  rw [registry_step, h]
  rfl

theorem stepLaw_analyze (s : Session) (source : String) :
    s.StepLaw (s.step (.analyze source)).1 (s.step (.analyze source)).2 (.analyze source) := by
  refine ⟨fun a ha => ?_, fun h => registry_step_of_brings_nil (by simp [brings, h])⟩
  have hbrings : s.brings (.analyze source) = a.brings s.read source := by simp [brings, ha]
  refine ⟨?_, fun hshared => ?_, fun hshared => ?_, fun hrefuses => ?_⟩
  · simp [step, ha, Attached.analyze_eq]
  · have happends := s.appends_step (.analyze source)
    rwa [hbrings, Attached.brings, if_pos hshared] at happends
  · exact registry_step_of_brings_nil (by rw [hbrings, Attached.brings, if_neg hshared])
  · have hempty := Analyzer.findings_of_refuses s.read hrefuses
    refine ⟨hempty, registry_step_of_brings_nil ?_⟩
    rw [hbrings, Attached.brings, hempty]
    exact ite_self _

theorem stepLaw_step (s : Session) (request : Request) : s.StepLaw (s.step request).1 (s.step request).2 request := by
  cases request with
  | add c => exact ⟨rfl, s.appends_step (.add c)⟩
  | analyze source => exact s.stepLaw_analyze source
  | create options attachment context =>
    refine ⟨registry_step_of_brings_nil rfl, fun hvalid => ?_⟩
    refine ⟨{ options, valid := hvalid, context }, rfl, ?_, ?_⟩ <;>
      simp [step, Analyzer.create_of_valid hvalid]
  | contains c => exact ⟨rfl, rfl⟩
  | snapshot => exact ⟨rfl, rfl⟩
  | parse source => exact registry_step_of_brings_nil rfl

/-- **The registry over a whole session.** Start with an empty registry, any reader and any analyzer or none, and ask
whatever one likes: analyzers are made with any valid settings, attached to the registry or not, scripts are analysed,
candidates added. Behind every step the registry holds no repeats and has grown at its end only, its size and its
look-up agree with its contents, and the request has done what the law of one step says. All in all the registry holds
what the requests brought, each at its first place. -/
theorem registry_history (read : ScriptReader) (current : Option Attached) (earlier : List Request)
    (request : Request) :
    let start : Session := { current, read }
    let s := start.after earlier
    let answer := (s.step request).1
    let next := (s.step request).2
    s.read = read ∧ start.run (earlier ++ [request]) = start.run earlier ++ [(answer, next.registry)] ∧
      next.registry.toList.Nodup ∧ s.registry.toList <+: next.registry.toList ∧
      next.registry.size = next.registry.toList.length ∧
      (∀ c, next.registry.contains c = true ↔ c ∈ next.registry.toList) ∧
      s.StepLaw answer next request ∧
      next.registry.toList = (start.bringsAll (earlier ++ [request])).eraseDups := by
  intro start s answer next
  refine ⟨start.read_after earlier, start.run_append earlier [request], next.registry.nodup, ?_, rfl,
    next.registry.contains_iff, s.stepLaw_step request, ?_⟩
  · rw [s.appends_step request]
    exact List.prefix_append _ _
  · have hnext : next = start.after (earlier ++ [request]) := by simp [next, s, after]
    rw [hnext, registry_after, OrderedSet.toList_foldl_insert]
    rfl

end Session

end ScriptTriage

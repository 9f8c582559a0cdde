import ScriptTriage.Proofs.Candidate
import ScriptTriage.Proofs.Walk.Sink

/-
The least length of a candidate. A string is measured before it is turned into a candidate and before repeats are
dropped, but a candidate is as long as its string, so measuring afterwards comes to the same.

- `inspectedAll`: the strings that a walk inspects.
- `Measured`, `measured_ofNodes`: the trace under a least length is the trace under none, without the candidates that
  are shorter, and under none the candidates are those of all inspected strings. Traces are put together from parts, and
  both facts pass from the parts to the whole (`Measured.append`, `Measured.flatMap`).
- `candidates_program`, `mem_candidates_program`: which candidates a walk lists, said with the inspected strings.
- `findings_threshold`: raising the least length leaves all other findings as they are and filters the candidates.
-/

namespace ScriptTriage

/-- is the event kept under a least length? Only candidates are measured. -/
def Event.reaches (least : Nat) : Event → Bool
  | .candidate c => decide (least ≤ c.length)
  | _ => true

namespace Trace

/-! ## Strings that are inspected -/

/-- the text of a node that is a string literal -/
def textOf : Node → List String
  | .literal ⟨.string text, _, _⟩ => [text]
  | _ => []

/-- the text of the string that a plain name is initialised with -/
def textOfDeclarator : Declarator → List String
  | .mk (some (.identifier _)) (some init) _ => textOf init
  | _ => []

mutual

/-- the texts of the string literals that a walk inspects in a node -/
def inspected : Node → List String
  | .variableDeclaration _ declarators _ => declarators.flatMap textOfDeclarator
  | .functionDeclaration (some _) _ (some (.mk body _)) _ => inspectedAll body
  | .expressionStatement (some (.assignment operator (some left) (some right) _)) _ =>
    if Mutates operator then inspected left ++ inspected right else []
  | .expressionStatement (some (.call _ arguments _)) _ => arguments.flatMap textOf
  | .ifStatement _ consequent alternate _ => inspectedBranch alternate ++ inspectedBranch consequent
  | .returnStatement (some argument) _ => textOf argument
  | .literal l => textOf (.literal l)
  | _ => []

def inspectedAll : List Node → List String
  | [] => []
  | n :: ns => inspected n ++ inspectedAll ns

/-- the texts that it inspects in a branch that is a block -/
def inspectedBranch : Option Node → List String
  | some (.block (.mk body _)) => inspectedAll body
  | _ => []

end

/-! ## The trace under a least length -/

/-- how events depend on the least length: they are the events under none, without the candidates that are too short,
and under none the candidates are those of `texts` -/
structure Measured (texts : List String) (events : Nat → List Event) : Prop where
  filter : ∀ least, events least = (events 0).filter (Event.reaches least)
  candidates : (events 0).filterMap Event.candidate? = texts.map Candidate.ofString

namespace Measured

/-- events without a candidate are not measured -/
theorem ofOthers {es : List Event} (h : ∀ e ∈ es, e.candidate? = none) : Measured [] fun _ => es where
  filter least := by
    refine (List.filter_eq_self.2 fun e he => ?_).symm
    have hother := h e he
    cases e with
    | candidate c => cases hother
    | _ => rfl
  candidates := List.filterMap_eq_nil_iff.2 h

theorem nil : Measured [] fun _ => [] := ofOthers nofun

theorem append {texts texts' : List String} {events events' : Nat → List Event} (h : Measured texts events)
    (h' : Measured texts' events') : Measured (texts ++ texts') fun least => events least ++ events' least where
  filter least := by rw [List.filter_append, ← h.filter, ← h'.filter]
  candidates := by rw [List.filterMap_append, List.map_append, h.candidates, h'.candidates]

theorem flatMap {α : Type} {texts : α → List String} {events : Nat → α → List Event}
    (h : ∀ a, Measured (texts a) fun least => events least a) (parts : List α) :
    Measured (parts.flatMap texts) fun least => parts.flatMap (events least) := by
  induction parts with
  | nil => exact nil
  | cons a parts ih =>
    simp only [List.flatMap_cons]
    exact (h a).append ih

end Measured

theorem measured_stop (kind : BreakpointKind) (loc : Option Location) (scope : Scope) :
    Measured [] fun _ => stop kind loc scope := by
  refine .ofOthers fun e he => ?_
  obtain ⟨_, -, rfl⟩ := List.mem_map.1 he
  rfl

theorem measured_ofTarget (scope : Scope) (target : Node) : Measured [] fun _ => ofTarget scope target := by
  refine .ofOthers fun e he => ?_
  cases target with
  | identifier i =>
    obtain rfl := List.mem_singleton.1 he
    rfl
  | _ => cases he

theorem measured_ofLiteral (l : Literal) : Measured (textOf (.literal l)) fun least => ofLiteral least l := by
  obtain ⟨value, raw, loc⟩ := l
  cases value with
  | string text =>
    simp only [ofLiteral, textOf, Candidate.extract?_eq]
    refine ⟨fun least => ?_, rfl⟩
    by_cases h : least ≤ text.length <;> simp [Event.reaches, Candidate.length_ofString, h]
  | _ => exact .nil

theorem measured_ofLiteralNode (n : Node) : Measured (textOf n) fun least => ofLiteralNode least n := by
  cases n with
  | literal l => exact measured_ofLiteral l
  | _ => exact .nil

theorem measured_ofInitialiser (scope : Scope) (name : String) (init : Node) :
    Measured (textOf init) fun least => ofInitialiser least scope name init := by
  cases init with
  | literal l =>
    have hraw : Measured [] fun _ => l.raw.toList.map fun raw => Event.valueAssignment ⟨name, scope, raw⟩ := by
      refine .ofOthers fun e he => ?_
      obtain ⟨_, -, rfl⟩ := List.mem_map.1 he
      rfl
    exact hraw.append (measured_ofLiteral l)
  | _ => exact .nil

theorem measured_ofDeclarator (scope : Scope) (d : Declarator) :
    Measured (textOfDeclarator d) fun least => ofDeclarator least scope d := by
  obtain ⟨id, init, loc⟩ := d
  cases id with
  | none => exact .nil
  | some target =>
    cases target with
    | identifier i =>
      have hbinding : Measured [] fun _ => [Event.binding ⟨i.name, scope⟩] := .ofOthers (by simp [Event.candidate?])
      cases init with
      | none => exact hbinding
      | some init =>
        exact hbinding.append ((measured_stop .assignment loc scope).append (measured_ofInitialiser scope i.name init))
    | _ => exact .nil

mutual

theorem measured_ofNode (scope : Scope) (n : Node) : Measured (inspected n) fun least => ofNode least scope n := by
  cases n with
  | variableDeclaration kind declarators loc =>
    simp only [ofNode, inspected]
    exact .flatMap (measured_ofDeclarator scope) declarators
  | functionDeclaration id params body loc =>
    match id, body with
    | some id, some (.mk body _) =>
      simp only [ofNode, inspected]
      exact measured_ofNodes ⟨id.name⟩ body
    | some _, none => exact .nil
    | none, _ => exact .nil
  | expressionStatement expression loc =>
    cases expression with
    | none => exact .nil
    | some e =>
      cases e with
      | assignment operator left right aloc =>
        match left, right with
        | some left, some right =>
          simp only [ofNode, inspected]
          split
          · have hleft := (measured_ofTarget scope left).append (measured_ofNode scope left)
            have hsides := hleft.append (measured_ofNode scope right)
            have hstop := hsides.append (measured_stop .assignment loc scope)
            rwa [List.append_nil] at hstop
          · exact .nil
        | some _, none => exact .nil
        | none, _ => exact .nil
      | call callee arguments cloc =>
        simp only [ofNode, inspected]
        exact .flatMap measured_ofLiteralNode arguments
      | _ => exact .nil
  | ifStatement test consequent alternate loc =>
    simp only [ofNode, inspected]
    exact (measured_ofBranch scope alternate).append (measured_ofBranch scope consequent)
  | loop kind body loc =>
    simp only [ofNode]
    split
    · exact .nil
    · exact measured_stop .loop loc scope
  | returnStatement argument loc =>
    cases argument with
    | none => exact .nil
    | some argument =>
      simp only [ofNode, inspected]
      exact measured_ofLiteralNode argument
  | literal l =>
    simp only [ofNode, inspected]
    exact measured_ofLiteral l
  | _ => exact .nil

theorem measured_ofNodes (scope : Scope) (ns : List Node) :
    Measured (inspectedAll ns) fun least => ofNodes least scope ns := by
  cases ns with
  | nil => exact .nil
  | cons n ns =>
    simp only [ofNodes, inspectedAll]
    exact (measured_ofNode scope n).append (measured_ofNodes scope ns)

theorem measured_ofBranch (scope : Scope) (branch : Option Node) :
    Measured (inspectedBranch branch) fun least => ofBranch least scope branch := by
  cases branch with
  | none => exact .nil
  | some n =>
    cases n with
    | block b =>
      obtain ⟨body, loc⟩ := b
      simp only [ofBranch, inspectedBranch]
      exact measured_ofNodes scope body
    | _ => exact .nil

end

end Trace

/-! ## Raising the least length -/

theorem Findings.candidates_ofEvents_filter (least : Nat) (es : List Event) :
    (Findings.ofEvents (es.filter (Event.reaches least))).candidates =
      (Findings.ofEvents es).candidates.filter (fun c => least ≤ c.length) := by
  have hcommute : (es.filter (Event.reaches least)).filterMap Event.candidate? =
      (es.filterMap Event.candidate?).filter (fun c => least ≤ c.length) := by
    rw [List.filterMap_filter, List.filter_filterMap]
    congr 1
    funext e
    cases e with
    | candidate c => by_cases h : least ≤ c.length <;> simp [Event.reaches, Event.candidate?, Option.filter_some, h]
    | _ => rfl
  simp only [Findings.ofEvents, hcommute, OrderedSet.eraseDups_filter]

/-- what is no candidate is not measured -/
theorem filterMap_filter_reaches {α : Type} (least : Nat) (part : Event → Option α)
    (hpart : ∀ c, part (.candidate c) = none) (es : List Event) :
    (es.filter (Event.reaches least)).filterMap part = es.filterMap part := by
  rw [List.filterMap_filter]
  congr 1
  funext e
  cases e with
  | candidate c => simp [hpart]
  | _ => rfl

namespace Walk

variable {σ : Type}

theorem findings_eq_filter (sink : Sink σ) (state : σ) (body : List Node) (least : Nat) :
    (program ⟨least, sink⟩ body state).1 =
      Findings.ofEvents ((Trace.ofNodes 0 .global body).filter (Event.reaches least)) := by
  rw [← (Trace.measured_ofNodes .global body).filter]
  exact findings_walk ⟨least, sink⟩ .global body state

theorem candidates_program (sink : Sink σ) (state : σ) (body : List Node) (least : Nat) :
    (program ⟨least, sink⟩ body state).1.candidates =
      ((Trace.inspectedAll body).map Candidate.ofString).eraseDups.filter (fun c => least ≤ c.length) := by
  have hall : (Findings.ofEvents (Trace.ofNodes 0 .global body)).candidates =
      ((Trace.inspectedAll body).map Candidate.ofString).eraseDups :=
    congrArg List.eraseDups (Trace.measured_ofNodes .global body).candidates
  rw [findings_eq_filter, Findings.candidates_ofEvents_filter, hall]

theorem mem_candidates_program (sink : Sink σ) (state : σ) (body : List Node) (least : Nat) (c : Candidate) :
    c ∈ (program ⟨least, sink⟩ body state).1.candidates ↔
      ∃ text ∈ Trace.inspectedAll body, least ≤ text.length ∧ Candidate.ofString text = c := by
  rw [candidates_program, List.mem_filter, List.mem_eraseDups, List.mem_map, decide_eq_true_iff]
  constructor
  · rintro ⟨⟨text, htext, rfl⟩, hlength⟩
    rw [Candidate.length_ofString] at hlength
    exact ⟨text, htext, hlength, rfl⟩
  · rintro ⟨text, htext, hlength, rfl⟩
    rw [Candidate.length_ofString]
    exact ⟨⟨text, htext, rfl⟩, hlength⟩

/-- **The least length only filters.** Raising the least length of candidates from `m` to `m'` leaves the bindings, literal
initialisers and stops as they are, and of the candidates it leaves those of length `m'` and more, in their order. Under
no least length the candidates are those of all strings that the walk inspects. So a candidate is listed under `m`
exactly if it comes from an inspected string of at least `m` characters, and then it is itself at least as long. -/
theorem findings_threshold (sink : Sink σ) (state : σ) (body : List Node) {m m' : Nat} (h : m ≤ m') :
    let found (least : Nat) : Findings := (program ⟨least, sink⟩ body state).1
    (found m').bindings = (found m).bindings ∧
      (found m').valueAssignments = (found m).valueAssignments ∧
      (found m').breakpoints = (found m).breakpoints ∧
      (found m').candidates = (found m).candidates.filter (fun c => m' ≤ c.length) ∧
      (found 0).candidates = ((Trace.inspectedAll body).map Candidate.ofString).eraseDups ∧
      (∀ c, c ∈ (found m).candidates ↔
        ∃ text ∈ Trace.inspectedAll body, m ≤ text.length ∧ Candidate.ofString text = c) ∧
      ∀ c ∈ (found m).candidates, m ≤ c.length := by
  intro found
  have hfound := findings_eq_filter sink state body
  have hcandidates := candidates_program sink state body
  refine ⟨?_, ?_, ?_, ?_, ?_, mem_candidates_program sink state body m, ?_⟩
  · simp only [found, hfound, Findings.ofEvents, filterMap_filter_reaches _ Event.binding? (fun _ => rfl)]
  · simp only [found, hfound, Findings.ofEvents, filterMap_filter_reaches _ Event.valueAssignment? (fun _ => rfl)]
  · simp only [found, hfound, Findings.ofEvents, filterMap_filter_reaches _ Event.breakpoint? (fun _ => rfl)]
  · simp only [found, hcandidates, List.filter_filter]
    refine List.filter_congr fun c _ => ?_
    have hboth : m' ≤ c.length → m ≤ c.length := Nat.le_trans h
    by_cases hc : m' ≤ c.length <;> simp [hc, hboth]
  · simp [found, hcandidates]
  · intro c hc
    obtain ⟨text, -, hlength, rfl⟩ := (mem_candidates_program sink state body m c).1 hc
    rwa [Candidate.length_ofString]

end Walk

/-- `run("é", "ab", "☃☃☃", "ab")` -/
def measuredScript : List Node :=
  [.expressionStatement (some (.call none (["é", "ab", "☃☃☃", "ab"].map fun text =>
    .literal ⟨.string text, none, none⟩) none)) none]

/-- the first string is one character in two bytes, so it is left out under a least length of two -/
theorem findings_threshold_measuredScript :
    1 ≤ 2 ∧
    (Walk.findings 2 measuredScript).candidates =
      (Walk.findings 1 measuredScript).candidates.filter (fun c => 2 ≤ c.length) ∧
    (Walk.findings 1 measuredScript).candidates = [.bytes [0xE9], .bytes [0x61, 0x62], .text "☃☃☃"] ∧
    (Walk.findings 2 measuredScript).candidates = [.bytes [0x61, 0x62], .text "☃☃☃"] := by
  have hle : 1 ≤ 2 := by decide
  obtain ⟨-, -, -, hfilter, -⟩ := Walk.findings_threshold .none () measuredScript hle
  have htwo : (Walk.findings 2 measuredScript).candidates =
      (Walk.findings 1 measuredScript).candidates.filter (fun c => 2 ≤ c.length) := hfilter
  have hone : (Walk.findings 1 measuredScript).candidates = [.bytes [0xE9], .bytes [0x61, 0x62], .text "☃☃☃"] := by
    decide +kernel
  refine ⟨hle, htwo, hone, ?_⟩
  rw [htwo, hone]
  decide +kernel

end ScriptTriage

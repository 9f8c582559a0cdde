import ScriptTriage.Proofs.Walk.Stack
import ScriptTriage.Proofs.Walk.Trace

/-
Which nodes a walk reaches, and in which scope. A visit leads on to the statements of a function with a name, under that
name, to those of the block branches of an `if`, and to the two sides of an assignment that is followed; nothing else
is reached. What a visit notices by itself, apart from the visits that it leads to, can be read off the node.

- `mem_ofNodes_iff`: the trace holds what is noticed at the nodes that the walk reaches, no more and no less, and so do
  the findings (`Walk.mem_bindings_iff` and the like).
- `Reaches.holds`: what a walk reaches is held by the program, and its scope is global or the name of a function that the
  program holds (`Reaches.scope_cases`).
-/

namespace ScriptTriage

namespace Walk

/-- a walk over the statements reaches the node, in the scope -/
inductive Reaches (body : List Node) : Scope → Node → Prop where
  | statement {n} (hn : n ∈ body) : Reaches body .global n
  /-- in the body of a function with a name -/
  | inFunction {scope id params statements bodyLoc loc n}
    (h : Reaches body scope (.functionDeclaration (some id) params (some (.mk statements bodyLoc)) loc))
    (hn : n ∈ statements) : Reaches body ⟨id.name⟩ n
  /-- in a branch of an `if` that is a block -/
  | inBranch {scope test consequent alternate loc statements blockLoc n}
    (h : Reaches body scope (.ifStatement test consequent alternate loc))
    (hbranch : consequent = some (.block (.mk statements blockLoc)) ∨
      alternate = some (.block (.mk statements blockLoc)))
    (hn : n ∈ statements) : Reaches body scope n
  /-- on a side of an assignment that is followed -/
  | onSide {scope operator left right assignmentLoc loc n}
    (h : Reaches body scope
      (.expressionStatement (some (.assignment operator (some left) (some right) assignmentLoc)) loc))
    (hoperator : Trace.Mutates operator) (hn : n = left ∨ n = right) : Reaches body scope n

end Walk

open Walk (Reaches)

variable {body : List Node} {scope : Scope} {n m : Node} {least : Nat} {e : Event}

namespace Trace

/-- what a visit notices by itself, apart from the visits that it leads to -/
def noticed (least : Nat) (scope : Scope) : Node → List Event
  | .variableDeclaration _ declarators _ => declarators.flatMap (ofDeclarator least scope)
  | .expressionStatement (some (.assignment operator (some left) (some _) _)) loc =>
    if Mutates operator then ofTarget scope left ++ stop .assignment loc scope else []
  | .expressionStatement (some (.call _ arguments _)) _ => arguments.flatMap (ofLiteralNode least)
  | .loop kind _ loc => if kind = .forOf then [] else stop .loop loc scope
  | .returnStatement (some argument) _ => ofLiteralNode least argument
  | .literal l => ofLiteral least l
  | _ => []

/-! ## What is noticed is in the trace -/

theorem noticed_subset (least : Nat) (scope : Scope) (n : Node) : noticed least scope n ⊆ ofNode least scope n := by
  intro e he
  fun_cases noticed least scope n with
  | case2 operator left right _ loc hoperator =>
    rw [noticed, if_pos hoperator, List.mem_append] at he
    rw [ofNode, if_pos hoperator]
    simp only [List.mem_append]
    rcases he with he | he
    · exact .inl (.inl (.inl he))
    · exact .inr he
  | _ => simp_all [noticed, ofNode]

theorem ofNode_subset_ofNodes {ns : List Node} (hn : n ∈ ns) : ofNode least scope n ⊆ ofNodes least scope ns := by
  rw [ofNodes_eq_flatMap]
  exact fun e he => List.mem_flatMap.2 ⟨n, hn, he⟩

theorem ofNode_subset (h : Reaches body scope n) : ofNode least scope n ⊆ ofNodes least .global body := by
  induction h with
  | statement hn => exact ofNode_subset_ofNodes hn
  | @inFunction scope id params statements bodyLoc loc n _ hn ih =>
    have hbody : ofNode least scope (.functionDeclaration (some id) params (some (.mk statements bodyLoc)) loc) =
        ofNodes least ⟨id.name⟩ statements := by rw [ofNode]
    exact fun e he => ih (hbody ▸ ofNode_subset_ofNodes hn he)
  | @inBranch scope test consequent alternate loc statements blockLoc n _ hbranch hn ih =>
    intro e he
    apply ih
    have hblock : e ∈ ofBranch least scope (some (.block (.mk statements blockLoc))) := by
      rw [ofBranch]
      exact ofNode_subset_ofNodes hn he
    rw [ofNode, List.mem_append]
    rcases hbranch with rfl | rfl
    · exact .inr hblock
    · exact .inl hblock
  | @onSide scope operator left right _ loc n _ hoperator hn ih =>
    intro e he
    apply ih
    rw [ofNode, if_pos hoperator]
    simp only [List.mem_append]
    rcases hn with rfl | rfl
    · exact .inl (.inl (.inr he))
    · exact .inl (.inr he)

/-! ## What is in the trace is noticed -/

/-- the event is noticed at a node that the walk reaches -/
def Noticed (least : Nat) (body : List Node) (e : Event) : Prop :=
  ∃ scope n, Reaches body scope n ∧ e ∈ noticed least scope n

mutual

theorem noticed_of_mem_ofNode {scope : Scope} {n : Node} (hreach : Reaches body scope n)
    (he : e ∈ ofNode least scope n) : Noticed least body e := by
  cases n with
  | functionDeclaration id params block loc =>
    match id, block with
    | some id, some (.mk statements bodyLoc) =>
      rw [ofNode] at he
      exact noticed_of_mem_ofNodes (fun m hm => .inFunction hreach hm) he
    | some _, none => cases he
    | none, _ => cases he
  | expressionStatement expression loc =>
    cases expression with
    | none => cases he
    | some expression =>
      cases expression with
      | assignment operator left right assignmentLoc =>
        match left, right with
        | some left, some right =>
          rw [ofNode] at he
          split at he
          · rename_i hoperator
            simp only [List.mem_append] at he
            rcases he with ((he | he) | he) | he
            · exact ⟨_, _, hreach, by rw [noticed, if_pos hoperator]; exact List.mem_append_left _ he⟩
            · exact noticed_of_mem_ofNode (.onSide hreach hoperator (.inl rfl)) he
            · exact noticed_of_mem_ofNode (.onSide hreach hoperator (.inr rfl)) he
            · exact ⟨_, _, hreach, by rw [noticed, if_pos hoperator]; exact List.mem_append_right _ he⟩
          · cases he
        | some _, none => cases he
        | none, _ => cases he
      | call callee arguments callLoc => exact ⟨_, _, hreach, by rwa [ofNode] at he⟩
      | _ => cases he
  | ifStatement test consequent alternate loc =>
    rw [ofNode, List.mem_append] at he
    rcases he with he | he
    · exact noticed_of_mem_ofBranch (fun _ _ h m hm => .inBranch hreach (.inr h) hm) he
    · exact noticed_of_mem_ofBranch (fun _ _ h m hm => .inBranch hreach (.inl h) hm) he
  | returnStatement argument loc =>
    match argument with
    | some argument => exact ⟨_, _, hreach, by rwa [ofNode] at he⟩
    | none => cases he
  | variableDeclaration | loop | literal => exact ⟨_, _, hreach, by rwa [ofNode] at he⟩
  | block | assignment | call | identifier | other => cases he

theorem noticed_of_mem_ofNodes {scope : Scope} {ns : List Node} (hreach : ∀ m ∈ ns, Reaches body scope m)
    (he : e ∈ ofNodes least scope ns) : Noticed least body e := by
  cases ns with
  | nil => cases he
  | cons n ns =>
    rw [ofNodes, List.mem_append] at he
    rcases he with he | he
    · exact noticed_of_mem_ofNode (hreach n List.mem_cons_self) he
    · exact noticed_of_mem_ofNodes (fun m hm => hreach m (List.mem_cons_of_mem n hm)) he

theorem noticed_of_mem_ofBranch {scope : Scope} {branch : Option Node}
    (hreach : ∀ statements loc, branch = some (.block (.mk statements loc)) → ∀ m ∈ statements, Reaches body scope m)
    (he : e ∈ ofBranch least scope branch) : Noticed least body e := by
  cases branch with
  | none => cases he
  | some b =>
    cases b with
    | block b =>
      obtain ⟨statements, loc⟩ := b
      rw [ofBranch] at he
      exact noticed_of_mem_ofNodes (hreach statements loc rfl) he
    | _ => cases he

end

theorem mem_ofNodes_iff : e ∈ ofNodes least .global body ↔ Noticed least body e := by
  constructor
  · exact noticed_of_mem_ofNodes fun m hm => .statement hm
  · rintro ⟨scope, n, hreach, he⟩
    exact ofNode_subset hreach (noticed_subset least scope n he)

theorem mem_eraseDups_filterMap_iff {α : Type} [DecidableEq α] {part : Event → Option α} {event : α → Event}
    (hpart : ∀ e a, part e = some a ↔ e = event a) (a : α) :
    a ∈ ((ofNodes least .global body).filterMap part).eraseDups ↔ Noticed least body (event a) := by
  rw [List.mem_eraseDups, List.mem_filterMap, ← mem_ofNodes_iff]
  simp only [hpart, exists_eq_right]

end Trace

namespace Walk

variable {σ : Type} (cfg : WalkConfig σ) (body : List Node) (state : σ)

theorem mem_bindings_iff (b : Binding) :
    b ∈ (program cfg body state).1.bindings ↔ Trace.Noticed cfg.leastLength body (.binding b) := by
  rw [program, findings_walk]
  exact Trace.mem_eraseDups_filterMap_iff (fun e a => by cases e <;> simp [Event.binding?]) b

theorem mem_valueAssignments_iff (v : ValueAssignment) :
    v ∈ (program cfg body state).1.valueAssignments ↔ Trace.Noticed cfg.leastLength body (.valueAssignment v) := by
  rw [program, findings_walk]
  exact Trace.mem_eraseDups_filterMap_iff (fun e a => by cases e <;> simp [Event.valueAssignment?]) v

theorem mem_breakpoints_iff (b : Breakpoint) :
    b ∈ (program cfg body state).1.breakpoints ↔ Trace.Noticed cfg.leastLength body (.breakpoint b) := by
  rw [program, findings_walk]
  exact Trace.mem_eraseDups_filterMap_iff (fun e a => by cases e <;> simp [Event.breakpoint?]) b

theorem mem_candidates_iff (c : Candidate) :
    c ∈ (program cfg body state).1.candidates ↔ Trace.Noticed cfg.leastLength body (.candidate c) := by
  rw [program, findings_walk]
  exact Trace.mem_eraseDups_filterMap_iff (fun e a => by cases e <;> simp [Event.candidate?]) c

end Walk

/-! ## What is reached is held -/

/-- the program holds the node somewhere -/
def Holds (body : List Node) (n : Node) : Prop := ∃ path, HoldsAt body path n

theorem Holds.statement (hn : n ∈ body) : Holds body n := by
  obtain ⟨i, hi⟩ := List.mem_iff_getElem?.1 hn
  exact ⟨_, .statement hi⟩

theorem Holds.held (h : Holds body n) (hm : m ∈ n.held) : Holds body m := by
  obtain ⟨path, hpath⟩ := h
  obtain ⟨i, hi⟩ := List.mem_iff_getElem?.1 hm
  exact ⟨_, .held hpath hi⟩

theorem Walk.Reaches.holds (h : Reaches body scope n) : Holds body n := by
  induction h with
  | statement hn => exact .statement hn
  | inFunction _ hn ih => exact ih.held (by simp [Node.held, Block.body, hn])
  | @inBranch _ _ _ _ _ statements blockLoc _ _ hbranch hn ih =>
    have hblock : Holds body (.block (.mk statements blockLoc)) := by
      apply ih.held
      rcases hbranch with rfl | rfl
      · simp [Node.held]
      · simp [Node.held]
    exact hblock.held hn
  | onSide _ _ hn ih =>
    have hassignment := ih.held (List.mem_singleton_self _)
    apply hassignment.held
    rcases hn with rfl | rfl
    · simp [Node.held]
    · simp [Node.held]

/-- the scope of what is reached is global, or the name of a function that the program holds -/
theorem Walk.Reaches.scope_cases (h : Reaches body scope n) :
    scope = .global ∨ ∃ id params block loc, Holds body (.functionDeclaration (some id) params block loc) ∧
      scope = ⟨id.name⟩ := by
  induction h with
  | statement => exact .inl rfl
  | inFunction h _ _ => exact .inr ⟨_, _, _, _, h.holds, rfl⟩
  | inBranch _ _ _ ih => exact ih
  | onSide _ _ _ ih => exact ih

end ScriptTriage

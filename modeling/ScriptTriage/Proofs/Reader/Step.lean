import ScriptTriage.Proofs.Reader.Legible
import ScriptTriage.Reader.Machine

/-
Steps of the reader between two strings: a goal that makes no string by itself leads from a sound state to a sound state,
if it leads anywhere. The steps are put together from a few operations on states, and each operation keeps a state sound;
so a case below says which operations its goal is made of. Here are the goals that build nodes and those of expressions.
-/

namespace ScriptTriage.Reader

/-- where the step leads, if it leads anywhere, is a sound state -/
def Keeps (source : String) (next : Option State) : Prop := ∀ s ∈ next, s.Sound source

variable {source : String} {s : State}

@[simp] theorem keeps_some : Keeps source (some s) ↔ s.Sound source := by
  simp [Keeps]

@[simp] theorem keeps_none : Keeps source none := by
  simp [Keeps]

theorem keeps_map {α : Type} {o : Option α} {f : α → State} (h : ∀ a, o = some a → (f a).Sound source) :
    Keeps source (o.map f) := by
  cases o with
  | none => exact keeps_none
  | some a => exact keeps_some.2 (h a rfl)

theorem legible_toPattern? {p q : Piece} (hp : Legible source p.tree) (h : p.toPattern? = some q) :
    Legible source q.tree := by
  unfold Piece.toPattern? at h
  split_ifs at h
  cases h
  exact hp.toPattern

theorem legible_toTarget? {p q : Piece} (hp : Legible source p.tree) (h : p.toTarget? = some q) :
    Legible source q.tree := by
  unfold Piece.toTarget? at h
  split_ifs at h
  · cases h
    exact hp
  · exact legible_toPattern? hp h

/-- the last piece in another reading -/
theorem sound_reread (h : s.Sound source) {read : Piece → Option Piece}
    (hread : ∀ p q, Legible source p.tree → read p = some q → Legible source q.tree) {q : Piece}
    (hq : s.last?.bind read = some q) : (s.changeLast fun _ => q).Sound source := by
  obtain ⟨p, hp, hpq⟩ := Option.bind_eq_some_iff.1 hq
  exact h.changeLast fun _ _ => hread p q (h.last? hp) hpq

theorem keeps_build (h : s.Sound source) (goal : BuildGoal) (hgoal : (Goal.build goal).isPlain = true) :
    Keeps source (goal.step s) := by
  cases goal with
  | start => exact keeps_some.2 h.startNode
  | close kind => exact fun s' hs => h.close (by simpa [Goal.isPlain] using hgoal) hs
  | wrap => exact fun s' hs => h.wrap hs
  | role r => exact keeps_some.2 (h.changeLast fun p hp => hp.withRole r)
  | mark text | word text =>
    obtain ⟨t, s₁, hpeek, ht, h₁⟩ := h.peek .plain
    simp only [BuildGoal.step, hpeek]
    split_ifs
    · exact keeps_some.2 (h₁.shiftMark ht)
    · exact keeps_none
  | name kind =>
    obtain ⟨t, s₁, hpeek, ht, h₁⟩ := h.peek .plain
    simp only [BuildGoal.step, hpeek]
    split_ifs
    · exact keeps_some.2 (h₁.shift ht (by simpa [Goal.isPlain] using hgoal))
    · exact keeps_none
  | pattern => exact keeps_map fun q hq => sound_reread h (fun _ _ => legible_toPattern?) hq
  | target => exact keeps_map fun q hq => sound_reread h (fun _ _ => legible_toTarget?) hq
  | impliedSemicolon operator =>
    obtain ⟨t, s₁, hpeek, ht, h₁⟩ := h.peek (.mayEnd operator)
    simp only [BuildGoal.step, hpeek, keeps_some]
    split_ifs
    · exact h₁.shiftMark ht
    · exact h₁
  | emptyStatement =>
    obtain ⟨t, s₁, hpeek, ht, h₁⟩ := h.peek .plain
    simp only [BuildGoal.step, hpeek]
    split_ifs
    · exact keeps_some.2 (h₁.shift ht rfl)
    · exact keeps_none

/-! ## Expressions -/

theorem allPlain_singleton (goal : Goal) : Goal.allPlain [goal] = goal.isPlain := by
  rw [Goal.allPlain, Goal.allPlain, Bool.and_true]

/-- goals, and behind them the goal that goes on with the operand -/
theorem allPlain_concat {goals : List Goal} {next : Goal} (hgoals : Goal.allPlain goals = true)
    (hnext : next.isPlain = true) : Goal.allPlain (goals ++ [next]) = true := by
  rw [Goal.allPlain_append, hgoals, allPlain_singleton, hnext]
  rfl

theorem allPlain_functionGoals (isAsync isGenerator : Bool) (name : Goal) (use : BlockUse) (kind : Kind) :
    Goal.allPlain (functionGoals isAsync isGenerator name use kind) = (name.isPlain && !kind.isString) := by
  cases isAsync <;> cases isGenerator <;>
    simp [functionGoals, Goal.node, Goal.start, Goal.close, Goal.word, Goal.mark, Goal.role, Goal.allPlain, Goal.isPlain]

theorem allPlain_functionExpressionGoals (isAsync : Bool) (t : Token) :
    Goal.allPlain (functionExpressionGoals isAsync t) = true := by
  rw [functionExpressionGoals, allPlain_functionGoals]
  cases isGenerator t <;> rfl

theorem allPlain_linkGoals? {t : Token} {next : Goal} (hnext : next.isPlain = true) {goals : List Goal}
    (h : linkGoals? t next = some goals) : Goal.allPlain goals = true := by
  unfold linkGoals? at h
  split at h
  · cases h
    exact allPlain_concat rfl hnext
  · cases h
    exact allPlain_concat rfl hnext
  · cases h
    rw [← allPlain_singleton] at hnext
    exact hnext
  · cases h
    exact allPlain_concat rfl hnext
  · cases h

theorem keeps_listNext (h : s.Sound source) (bracket : String) {again : Goal} (hagain : again.isPlain = true) :
    Keeps source (listNext bracket again s) := by
  obtain ⟨t, s₁, hpeek, ht, h₁⟩ := h.peek (.afterOperand false)
  simp only [listNext, hpeek]
  split_ifs
  · exact keeps_some.2 ((h₁.shiftMark ht).push ((allPlain_singleton again).trans hagain))
  · exact keeps_some.2 (h₁.shiftMark ht)
  · exact keeps_none

theorem keeps_sparseItem (h : s.Sound source) (bracket : String) {again next : Goal} (hagain : again.isPlain = true)
    (hnext : next.isPlain = true) : Keeps source (sparseItem bracket again next s) := by
  obtain ⟨t, s₁, hpeek, ht, h₁⟩ := h.peek .plain
  simp only [sparseItem, hpeek]
  split_ifs
  · exact keeps_some.2 (h₁.shiftMark ht)
  · exact keeps_some.2 ((h₁.shiftMark ht).push ((allPlain_singleton again).trans hagain))
  · exact keeps_some.2 (h₁.push (allPlain_concat rfl hnext))
  · exact keeps_some.2 (h₁.push (allPlain_concat rfl hnext : Goal.allPlain ([_] ++ [next]) = true))

theorem sound_asyncOperand (h : s.Sound source) (c : Context) {t : Token} (ht : Sighted source t) :
    (asyncOperand c s t).Sound source := by
  simp only [asyncOperand]
  split_ifs
  · exact h.push (allPlain_functionExpressionGoals true _)
  · exact h.push rfl
  · exact h.push rfl
  · exact h.shift ht rfl

theorem sound_newOperand (h : s.Sound source) (c : Context) (t : Token) : (newOperand c s t).Sound source := by
  unfold newOperand
  split_ifs
  · exact h.push rfl
  · exact h.push rfl

theorem keeps_importOperand (h : s.Sound source) {t : Token} (ht : Sighted source t) :
    Keeps source (importOperand s t) := by
  simp only [importOperand]
  split_ifs
  · exact keeps_some.2 (h.shift ht rfl)
  · exact keeps_some.2 (h.push rfl)
  · exact keeps_some.2 (h.shift ht rfl)
  · exact keeps_none

theorem keeps_wordOperand (h : s.Sound source) (c : Context) {t : Token} (ht : Sighted source t) :
    Keeps source (wordOperand c s t) := by
  unfold wordOperand
  split
  · exact keeps_some.2 (h.push (allPlain_functionExpressionGoals false t))
  · exact keeps_some.2 (sound_asyncOperand h c ht)
  · exact keeps_some.2 (h.push rfl)
  · exact keeps_some.2 (sound_newOperand h c t)
  · exact keeps_importOperand h ht
  -- the words that are operators push their goals; all others are taken as they stand
  case h_12 | h_13 | h_14 | h_15 | h_16 => exact keeps_some.2 (h.push rfl)
  all_goals exact keeps_some.2 (h.shift ht rfl)

theorem keeps_markOperand (h : s.Sound source) (c : Context) (t : Token) : Keeps source (markOperand c s t) := by
  fun_cases markOperand c s t with
  | case16 => exact keeps_none
  | _ => exact keeps_some.2 (h.push rfl)

theorem keeps_operandStep (h : s.Sound source) (c : Context) : Keeps source (operandStep c s) := by
  obtain ⟨t, s₁, hpeek, ht, h₁⟩ := h.peek .plain
  simp only [operandStep, hpeek]
  split
  · exact keeps_some.2 (h₁.shift ht rfl)
  · exact keeps_wordOperand h₁ c ht
  · split_ifs
    · exact keeps_some.2 (h₁.shift ht rfl)
    · exact keeps_none
  · exact keeps_markOperand h₁ c t
  · exact keeps_none

theorem allPlain_binaryGoals (c : Context) {operator : Goal} (hoperator : operator.isPlain = true) (strength : Nat)
    (right : Bool) : Goal.allPlain (binaryGoals c operator strength right) = true := by
  simp only [binaryGoals, Goal.suffix, List.cons_append, List.nil_append, Goal.allPlain, hoperator]
  rfl

theorem keeps_assignmentStep (h : s.Sound source) (c : Context) {next : Goal} (hnext : next.isPlain = true) :
    Keeps source (assignmentStep c next s) :=
  keeps_map fun _ hq => (sound_reread h (fun _ _ => legible_toTarget?) hq).push (allPlain_concat rfl hnext)

theorem keeps_augmentedStep (h : s.Sound source) (c : Context) (operator : String) {next : Goal}
    (hnext : next.isPlain = true) : Keeps source (augmentedStep c operator next s) := by
  unfold augmentedStep
  split
  · split_ifs
    · exact keeps_some.2 (h.push (allPlain_concat rfl hnext))
    · exact keeps_none
  · exact keeps_none

theorem keeps_arrowStep (h : s.Sound source) (c : Context) {next : Goal} (hnext : next.isPlain = true) :
    Keeps source (arrowStep c next s) := by
  unfold arrowStep
  split
  · split_ifs
    · exact keeps_some.2 (h.push (allPlain_concat rfl hnext))
    · exact keeps_none
  · exact keeps_none

theorem keeps_tailStep (h : s.Sound source) (c : Context) (least : Nat) : Keeps source (tailStep c least s) := by
  obtain ⟨t, s₁, hpeek, ht, h₁⟩ := h.peek (.afterOperand c.semicolon)
  simp only [tailStep, hpeek]
  split
  · split_ifs
    · exact keeps_map fun s₂ hs₂ => ((h₁.wrap hs₂).shiftMark ht).push rfl
    · exact keeps_some.2 h₁
  · split_ifs
    · exact keeps_some.2 h₁
    · split
      · rw [keeps_some]
        split_ifs
        · exact h₁.push (allPlain_concat (allPlain_binaryGoals c rfl _ _) rfl)
        · exact h₁
      · exact keeps_some.2 h₁
  · split
    · next goals hgoals => exact keeps_some.2 (h₁.push (allPlain_linkGoals? rfl hgoals))
    · split_ifs
      · exact keeps_some.2 (h₁.push rfl)
      · exact keeps_some.2 (h₁.push rfl)
      · exact keeps_some.2 h₁
      · exact keeps_assignmentStep h₁ c rfl
      · exact keeps_arrowStep h₁ c rfl
      · exact keeps_augmentedStep h₁ c _ rfl
      · split
        · rw [keeps_some]
          split_ifs
          · exact h₁.push (allPlain_concat (allPlain_binaryGoals c rfl _ _) rfl)
          · exact h₁
        · exact keeps_some.2 h₁
  · exact keeps_some.2 h₁

/-- another innermost node -/
theorem sound_replaceFrame (h : s.Sound source) {frame : List Piece} (hframe : ∀ p ∈ frame, Legible source p.tree) :
    { s with frames := frame :: s.frames.drop 1 }.Sound source :=
  h.withFrames (List.forall_mem_cons.2 ⟨hframe, fun frame hf => h.legible frame (List.mem_of_mem_drop hf)⟩)

theorem legible_groupSequence {frame grouped : List Piece} (hframe : ∀ p ∈ frame, Legible source p.tree)
    (h : groupSequence frame = some grouped) : ∀ p ∈ grouped, Legible source p.tree := by
  cases frame with
  | nil => cases h
  | cons closing inner =>
    rw [List.forall_mem_cons] at hframe
    simp only [groupSequence] at h
    split_ifs at h
    · obtain ⟨c, hc, rfl⟩ := Option.map_eq_some_iff.1 h
      have hinner : ∀ p ∈ inner.dropLast, Legible source p.tree :=
        fun p hp => hframe.2 p (List.dropLast_subset _ hp)
      have hclosed := legible_closeFrame? rfl hinner hc
      have hopening : ∀ p ∈ inner.getLast?.toList, Legible source p.tree :=
        fun p hp => hframe.2 p (List.mem_of_getLast? (Option.mem_toList.1 hp))
      exact List.forall_mem_cons.2 ⟨hframe.1, List.forall_mem_append.2 ⟨hclosed, hopening⟩⟩
    · cases h
      exact List.forall_mem_cons.2 hframe

theorem legible_groupParameters {frame grouped : List Piece} (hframe : ∀ p ∈ frame, Legible source p.tree)
    (h : groupParameters frame = some grouped) : ∀ p ∈ grouped, Legible source p.tree := by
  unfold groupParameters at h
  induction frame generalizing grouped with
  | nil =>
    cases h
    simp
  | cons p frame ih =>
    rw [List.mapM_cons, Option.bind_eq_bind, Option.bind_eq_some_iff] at h
    obtain ⟨q, hq, h⟩ := h
    obtain ⟨rest, hrest, h⟩ := Option.bind_eq_some_iff.1 h
    cases h
    rw [List.forall_mem_cons] at hframe
    refine List.forall_mem_cons.2 ⟨?_, ih hframe.2 hrest⟩
    split_ifs at hq
    · exact legible_toPattern? hframe.1 hq
    · cases hq
      exact hframe.1

theorem keeps_parenEndStep (h : s.Sound source) (c : Context) : Keeps source (parenEndStep c s) := by
  obtain ⟨t, s₁, hpeek, ht, h₁⟩ := h.peek .plain
  have h₂ := h₁.shiftMark ht
  simp only [parenEndStep, hpeek]
  split_ifs
  · exact keeps_none
  -- something that can be a group
  · exact keeps_map fun frame hf => (sound_replaceFrame h₂ (legible_groupParameters h₂.frame hf)).push rfl
  · exact keeps_map fun frame hf => (sound_replaceFrame h₂ (legible_groupSequence h₂.frame hf)).push rfl
  -- something that cannot
  · exact keeps_map fun frame hf => (sound_replaceFrame h₂ (legible_groupParameters h₂.frame hf)).push rfl
  · exact keeps_none

theorem legible_toParameters? {p q : Piece} (hp : Legible source p.tree) (h : p.toParameters? = some q) :
    Legible source q.tree := by
  unfold Piece.toParameters? at h
  split at h
  next htree =>
    split_ifs at h
    cases h
    rw [htree] at hp
    exact legible_of_ne rfl (Legible.toPatterns hp.children)

theorem keeps_asyncEndStep (h : s.Sound source) (c : Context) : Keeps source (asyncEndStep c s) := by
  obtain ⟨t, s₁, hpeek, ht, h₁⟩ :=
    h.peek (if s.last?.all (·.asExpression) then .afterOperand c.semicolon else { operand := false })
  simp only [asyncEndStep, hpeek]
  split_ifs
  · exact keeps_map fun q hq => ((sound_reread h₁ (fun _ _ => legible_toParameters?) hq).changeFirst
      fun _ _ => legible_leaf rfl).push rfl
  · exact keeps_some.2 ((h₁.changeFirst fun _ hp => hp.withRole .function).push rfl)

theorem keeps_arrowBodyStep (h : s.Sound source) (c : Context) : Keeps source (arrowBodyStep c s) := by
  obtain ⟨t, s₁, hpeek, ht, h₁⟩ := h.peek .plain
  simp only [arrowBodyStep, hpeek]
  split_ifs
  all_goals exact keeps_some.2 (h₁.push rfl)

theorem keeps_expression (h : s.Sound source) (goal : ExpressionGoal) : Keeps source (goal.step s) := by
  cases goal with
  | expression c => exact keeps_some.2 (h.push rfl)
  | expressions c => exact keeps_some.2 (h.push rfl)
  | comma c =>
    obtain ⟨t, s₁, hpeek, ht, h₁⟩ := h.peek (.afterOperand c.semicolon)
    simp only [ExpressionGoal.step, hpeek, keeps_some]
    split_ifs
    · exact h₁.push rfl
    · exact h₁
  | moreComma c =>
    obtain ⟨t, s₁, hpeek, ht, h₁⟩ := h.peek (.afterOperand c.semicolon)
    simp only [ExpressionGoal.step, hpeek, keeps_some]
    split_ifs
    · exact (h₁.shiftMark ht).push rfl
    · exact h₁
  | operand c => exact keeps_operandStep h c
  | tail c least => exact keeps_tailStep h c least
  | operatorMark text =>
    obtain ⟨t, s₁, hpeek, ht, h₁⟩ := h.peek (.afterOperand false)
    simp only [ExpressionGoal.step, hpeek]
    split_ifs
    · exact keeps_some.2 (h₁.shiftMark ht)
    · exact keeps_none
  | yieldRest c =>
    obtain ⟨t, s₁, hpeek, ht, h₁⟩ := h.peek { semicolon := c.semicolon, operator := true }
    simp only [ExpressionGoal.step, hpeek]
    split_ifs
    · exact keeps_some.2 ((h₁.shiftMark ht).push rfl)
    · exact keeps_some.2 (h₁.push rfl)
    · exact keeps_some.2 h₁
  | newTarget c =>
    obtain ⟨t, s₁, hpeek, ht, h₁⟩ := h.peek .plain
    simp only [ExpressionGoal.step, hpeek]
    split_ifs
    · exact keeps_none
    · exact keeps_some.2 ((h₁.shift ht rfl).push rfl)
    · exact keeps_some.2 (h₁.push rfl)
  | memberTail c =>
    obtain ⟨t, s₁, hpeek, ht, h₁⟩ := h.peek (.afterOperand c.semicolon)
    simp only [ExpressionGoal.step, hpeek, keeps_some]
    split_ifs
    · cases hlink : linkGoals? t (.expression (.memberTail c)) with
      | none => exact h₁.push rfl
      | some goals => exact h₁.push (allPlain_linkGoals? rfl hlink)
    · exact h₁.push rfl
  | newArguments c =>
    obtain ⟨t, s₁, hpeek, ht, h₁⟩ := h.peek (.afterOperand c.semicolon)
    simp only [ExpressionGoal.step, hpeek, keeps_some]
    split_ifs
    · exact h₁.push rfl
    · exact h₁
  | property =>
    obtain ⟨t, s₁, hpeek, ht, h₁⟩ := h.peek .plain
    simp only [ExpressionGoal.step, hpeek]
    split
    · exact keeps_some.2 (h₁.shift ht rfl)
    · exact keeps_some.2 (h₁.shift ht rfl)
    · exact keeps_none
  | optionalLink =>
    obtain ⟨t, s₁, hpeek, ht, h₁⟩ := h.peek (.afterOperand false)
    simp only [ExpressionGoal.step, hpeek]
    split_ifs
    · exact keeps_none
    · exact keeps_some.2 ((h₁.shift ht rfl).push rfl)
    · exact keeps_some.2 ((h₁.shift ht rfl).push rfl)
    · exact keeps_some.2 ((h₁.shift ht rfl).push rfl)
  | linkedFunction => exact keeps_some.2 (h.changeFirst fun _ hp => hp.withRole .function)
  | parenItems =>
    obtain ⟨t, s₁, hpeek, ht, h₁⟩ := h.peek .plain
    simp only [ExpressionGoal.step, hpeek]
    split_ifs
    · exact keeps_some.2 h₁
    · exact keeps_some.2 (h₁.push rfl)
    · exact keeps_some.2 (h₁.push rfl)
  | parenNext =>
    obtain ⟨t, s₁, hpeek, ht, h₁⟩ := h.peek (.afterOperand false)
    simp only [ExpressionGoal.step, hpeek]
    split_ifs
    · exact keeps_some.2 ((h₁.shiftMark ht).push rfl)
    · exact keeps_some.2 h₁
    · exact keeps_none
  | parenEnd c => exact keeps_parenEndStep h c
  | asyncEnd c => exact keeps_asyncEndStep h c
  | arrowBody c => exact keeps_arrowBodyStep h c
  | arguments => exact keeps_some.2 (h.push rfl)
  | argumentItems => exact keeps_sparseItem h ")" rfl rfl
  | argumentNext => exact keeps_listNext h ")" rfl
  | arrayItems => exact keeps_sparseItem h "]" rfl rfl
  | arrayNext => exact keeps_listNext h "]" rfl
  | optionalName =>
    obtain ⟨t, s₁, hpeek, ht, h₁⟩ := h.peek .plain
    simp only [ExpressionGoal.step, hpeek, keeps_some]
    split_ifs
    · exact (h₁.shift ht rfl).push rfl
    · exact h₁
  | parameters => exact keeps_some.2 (h.push rfl)
  | parameterItems =>
    obtain ⟨t, s₁, hpeek, ht, h₁⟩ := h.peek .plain
    simp only [ExpressionGoal.step, hpeek]
    split_ifs
    · exact keeps_some.2 (h₁.shiftMark ht)
    · exact keeps_some.2 (h₁.push rfl)
    · exact keeps_some.2 (h₁.push rfl)
  | parameterNext => exact keeps_listNext h ")" rfl

end ScriptTriage.Reader

import ScriptTriage.Proofs.Reader.Step

/-
Steps of the reader, continued: members of objects and classes, literals and markup, and statements. Two goals push the
block that makes a string; the goals inside that block are left to the string itself.
-/

namespace ScriptTriage.Reader

variable {source : String} {s : State}

/-! ## Members of objects and classes -/

theorem keeps_wordMember (h : s.Sound source) {t : Token} (ht : Sighted source t) : Keeps source (wordMember s t) := by
  simp only [wordMember]
  split_ifs
  · exact keeps_some.2 (h.push rfl)
  · exact keeps_some.2 (h.push rfl)
  · exact keeps_some.2 (h.push rfl)
  · exact keeps_some.2 (h.shift ht rfl)

theorem keeps_classItemStep (h : s.Sound source) : Keeps source (classItemStep s) := by
  obtain ⟨t, s₁, hpeek, ht, h₁⟩ := h.peek .plain
  simp only [classItemStep, hpeek]
  split_ifs
  all_goals exact keeps_some.2 (h₁.push rfl)

theorem keeps_member (h : s.Sound source) (goal : MemberGoal) : Keeps source (goal.step s) := by
  cases goal with
  | object => exact keeps_some.2 (h.push rfl)
  | objectItems =>
    obtain ⟨t, s₁, hpeek, ht, h₁⟩ := h.peek .plain
    simp only [MemberGoal.step, hpeek]
    split_ifs
    · exact keeps_some.2 (h₁.shiftMark ht)
    · exact keeps_some.2 ((h₁.shiftMark ht).push rfl)
    · exact keeps_some.2 (h₁.push rfl)
  | objectNext => exact keeps_listNext h _ rfl
  | objectItem =>
    obtain ⟨t, s₁, hpeek, ht, h₁⟩ := h.peek .plain
    simp only [MemberGoal.step, hpeek]
    split_ifs
    · exact keeps_some.2 (h₁.push rfl)
    · exact keeps_some.2 (h₁.push rfl)
    · exact keeps_wordMember h₁ ht
    · exact keeps_some.2 (h₁.push rfl)
  | modifiers inClass ranks =>
    obtain ⟨t, s₁, hpeek, ht, h₁⟩ := h.peek .plain
    cases ranks with
    | nil =>
      simp only [MemberGoal.step, hpeek, keeps_some]
      exact h₁
    | cons rank more =>
      simp only [MemberGoal.step, hpeek, keeps_some]
      split_ifs
      · exact h₁.shiftMark ht
      · exact (h₁.shiftMark ht).push rfl
      · exact h₁.push rfl
  | key =>
    obtain ⟨t, s₁, hpeek, ht, h₁⟩ := h.peek .plain
    simp only [MemberGoal.step, hpeek]
    split
    · exact keeps_some.2 (h₁.shift ht rfl)
    · exact keeps_some.2 (h₁.shift ht rfl)
    · exact keeps_some.2 (h₁.shift ht rfl)
    · split_ifs
      · exact keeps_some.2 (h₁.push rfl)
      · exact keeps_some.2 (h₁.push rfl)
      · exact keeps_none
    · exact keeps_none
  | afterObjectKey =>
    obtain ⟨t, s₁, hpeek, ht, h₁⟩ := h.peek .plain
    simp only [MemberGoal.step, hpeek]
    split_ifs
    · exact keeps_some.2 (h₁.push rfl)
    · exact keeps_some.2 (h₁.push rfl)
    · exact keeps_none
  | decorators =>
    obtain ⟨t, s₁, hpeek, ht, h₁⟩ := h.peek .plain
    simp only [MemberGoal.step, hpeek, keeps_some]
    split_ifs
    · exact h₁.push rfl
    · exact h₁
  | decoratorTail =>
    obtain ⟨t, s₁, hpeek, ht, h₁⟩ := h.peek { operand := false }
    simp only [MemberGoal.step, hpeek, keeps_some]
    split_ifs
    · exact h₁.push rfl
    · exact h₁.push rfl
    · exact h₁
  | className required =>
    obtain ⟨t, s₁, hpeek, ht, h₁⟩ := h.peek .plain
    simp only [MemberGoal.step, hpeek]
    split_ifs
    · exact keeps_some.2 ((h₁.shift ht rfl).push rfl)
    · exact keeps_none
    · exact keeps_some.2 h₁
  | heritage =>
    obtain ⟨t, s₁, hpeek, ht, h₁⟩ := h.peek .plain
    simp only [MemberGoal.step, hpeek, keeps_some]
    split_ifs
    · exact h₁.push rfl
    · exact h₁
  | classBody => exact keeps_some.2 (h.push rfl)
  | classItems =>
    obtain ⟨t, s₁, hpeek, ht, h₁⟩ := h.peek .plain
    simp only [MemberGoal.step, hpeek]
    split_ifs
    · exact keeps_some.2 (h₁.shiftMark ht)
    · exact keeps_some.2 ((h₁.shiftMark ht).push rfl)
    · exact keeps_some.2 (h₁.push rfl)
  | classItem => exact keeps_classItemStep h
  | afterClassKey =>
    obtain ⟨t, s₁, hpeek, ht, h₁⟩ := h.peek (.mayEnd false)
    simp only [MemberGoal.step, hpeek]
    split_ifs
    · exact keeps_some.2 (h₁.push rfl)
    · exact keeps_none
    · exact keeps_some.2 (h₁.push rfl)
    · exact keeps_some.2 (h₁.push rfl)

/-! ## Literals and markup -/

/-- push the block of goals that makes a string -/
theorem sound_pushString (h : s.Sound source) {quote : Char} {text : String} (htext : text = String.singleton quote)
    {parts : LiteralGoal} (hparts : IsParts quote parts) :
    (s.push (Goal.node .string [.mark text, .literal parts])).Sound source := by
  subst htext
  exact ⟨h.cursor, h.legible, .string hparts h.goals⟩

theorem keeps_shiftElementName (h : s.Sound source) {kind : Kind} (hkind : kind.isString = false) :
    Keeps source (shiftElementName kind s) := by
  obtain ⟨t, s₁, hpeek, ht, h₁⟩ := h.peek .plain
  simp only [shiftElementName, hpeek]
  split_ifs
  · exact keeps_some.2 ((h₁.atStart ht).shiftLength hkind true _)
  · exact keeps_none

theorem keeps_attributesStep (h : s.Sound source) : Keeps source (attributesStep s) := by
  obtain ⟨t, s₁, hpeek, ht, h₁⟩ := h.peek .plain
  simp only [attributesStep, hpeek]
  split_ifs
  · exact keeps_some.2 ((h₁.shiftMark ht).push rfl)
  · exact keeps_some.2 (((h₁.atStart ht).shiftLength rfl false 2).push rfl)
  · exact keeps_some.2 (h₁.push rfl)
  · exact keeps_some.2 (h₁.push rfl)

theorem keeps_childrenStep (h : s.Sound source) : Keeps source (childrenStep s) := by
  obtain ⟨t, s₁, hpeek, ht, h₁⟩ := h.peek .plain
  have h₂ := h₁.atStart ht
  simp only [childrenStep, hpeek]
  split_ifs
  · exact keeps_some.2 ((h.shiftLength rfl true _).push rfl)
  · exact keeps_some.2 ((h₂.shiftLength rfl true _).push rfl)
  · exact keeps_some.2 ((h₂.startNode.shiftLength rfl false 2).push rfl)
  · exact keeps_some.2 (h₂.push rfl)
  · exact keeps_some.2 (h₂.push rfl)
  · exact keeps_none

theorem keeps_templatePartsStep (h : s.Sound source) : Keeps source (templatePartsStep s) := by
  simp only [templatePartsStep]
  split
  · exact keeps_some.2 ((h.shiftLength rfl true _).push rfl)
  · split_ifs
    · exact keeps_some.2 ((h.shiftLength rfl true _).push rfl)
    · exact keeps_some.2 (h.shiftLength rfl false 1)
    · exact keeps_some.2 ((h.startNode.shiftLength rfl false 2).push rfl)
    · exact keeps_none

theorem keeps_regexStep (h : s.Sound source) : Keeps source (regexStep s) := by
  have hpattern : ∀ n, ((s.shiftLength (.other "regex_pattern") true n).changeLast fun p =>
      { p with tree := p.tree.withRole .pattern }).Sound source :=
    fun n => (h.shiftLength rfl true n).changeLast fun p hp => hp.withRole .pattern
  simp only [regexStep]
  split_ifs
  · exact keeps_none
  · exact keeps_none
  · exact keeps_some.2 ((((hpattern _).shiftLength rfl false 1).shiftLength rfl true _).changeLast
      fun p hp => hp.withRole .flags)
  · exact keeps_some.2 ((hpattern _).shiftLength rfl false 1)

theorem keeps_literal (h : s.Sound source) (goal : LiteralGoal) (hgoal : (Goal.literal goal).isPlain = true) :
    Keeps source (goal.step s) := by
  cases goal with
  | string =>
    obtain ⟨t, s₁, hpeek, ht, h₁⟩ := h.peek .plain
    simp only [LiteralGoal.step, hpeek]
    split_ifs
    · exact keeps_some.2 (sound_pushString h₁ (by decide) (.inl rfl))
    · exact keeps_some.2 (sound_pushString h₁ (by decide) (.inl rfl))
    · exact keeps_none
  | stringParts quote => cases hgoal
  | template => exact keeps_some.2 (h.push rfl)
  | templateParts => exact keeps_templatePartsStep h
  | regex => exact keeps_some.2 (h.push rfl)
  | regexRest => exact keeps_regexStep h
  | element =>
    obtain ⟨t, s₁, hpeek, ht, h₁⟩ := h.peek .plain
    simp only [LiteralGoal.step, hpeek]
    split_ifs
    · exact keeps_none
    · exact keeps_some.2 (h₁.push rfl)
    · exact keeps_some.2 (h₁.push rfl)
  | elementName => exact keeps_map fun s' hs => (keeps_shiftElementName h rfl s' hs).push rfl
  | elementNameTail =>
    obtain ⟨t, s₁, hpeek, ht, h₁⟩ := h.peek .plain
    simp only [LiteralGoal.step, hpeek]
    split_ifs
    · exact keeps_some.2 ((h₁.shiftMark ht).push rfl)
    · exact keeps_shiftElementName (h₁.shiftMark ht) rfl
    · exact keeps_some.2 h₁
  | closingName =>
    obtain ⟨t, s₁, hpeek, ht, h₁⟩ := h.peek .plain
    simp only [LiteralGoal.step, hpeek]
    split_ifs
    · exact keeps_some.2 h₁
    · exact keeps_some.2 (h₁.push rfl)
  | attributes => exact keeps_attributesStep h
  | attributeName =>
    intro s' hs
    obtain ⟨s₁, hs₁, hs⟩ := Option.bind_eq_some_iff.1 hs
    have h₁ := keeps_shiftElementName h rfl s₁ hs₁
    obtain ⟨t, s₂, hpeek, ht, h₂⟩ := h₁.peek .plain
    simp only [hpeek] at hs
    split_ifs at hs
    · exact keeps_shiftElementName (h₂.shiftMark ht) rfl s' hs
    · cases hs
      exact h₂
  | attributeValue =>
    obtain ⟨t, s₁, hpeek, ht, h₁⟩ := h.peek .plain
    obtain ⟨u, s₂, hpeek₂, hu, h₂⟩ := (h₁.shiftMark ht).peek .plain
    simp only [LiteralGoal.step, hpeek, hpeek₂]
    split_ifs
    · exact keeps_some.2 h₁
    · exact keeps_some.2 (sound_pushString h₂ (by decide) (.inr rfl))
    · exact keeps_some.2 (sound_pushString h₂ (by decide) (.inr rfl))
    · exact keeps_some.2 (h₂.push rfl)
    · exact keeps_some.2 (h₂.push rfl)
    · exact keeps_none
  | attributeParts quote => cases hgoal
  | braceRest =>
    obtain ⟨t, s₁, hpeek, ht, h₁⟩ := h.peek .plain
    simp only [LiteralGoal.step, hpeek]
    split_ifs
    · exact keeps_some.2 h₁
    · exact keeps_some.2 (h₁.push rfl)
    · exact keeps_some.2 (h₁.push rfl)
  | children => exact keeps_childrenStep h

/-! ## Statements -/

theorem allPlain_variableGoals (word : String) : Goal.allPlain (variableGoals word) = true := by
  unfold variableGoals
  split_ifs
  · rfl
  · rfl

theorem allPlain_functionDeclarationGoals (isAsync : Bool) (t : Token) (use : BlockUse) :
    Goal.allPlain (functionDeclarationGoals isAsync t use) = true := by
  rw [functionDeclarationGoals, allPlain_functionGoals]
  cases isGenerator t <;> rfl

theorem allPlain_declarationGoals? {t : Token} {use : BlockUse} {goals : List Goal}
    (h : declarationGoals? t use = some goals) : Goal.allPlain goals = true := by
  unfold declarationGoals? at h
  split at h
  · cases h
    exact allPlain_variableGoals _
  · cases h
    exact allPlain_variableGoals _
  · split_ifs at h
    cases h
    exact allPlain_variableGoals _
  · split_ifs at h
    cases h
    exact allPlain_functionDeclarationGoals _ _ _
  · dsimp only at h
    split_ifs at h
    cases h
    exact allPlain_functionDeclarationGoals _ _ _
  · split_ifs at h
    cases h
    rfl
  · cases h

theorem isString_of_expressionKindOf? {t : Token} {kind : Kind} (h : expressionKindOf? t = some kind) :
    kind.isString = false := by
  unfold expressionKindOf? at h
  split at h
  · cases h
    split_ifs <;> rfl
  · cases h
    split_ifs <;> rfl
  · cases h
    rfl
  · cases h

theorem allPlain_keywordGoals? {t : Token} {goals : List Goal} (h : keywordGoals? t = some goals) :
    Goal.allPlain goals = true := by
  unfold keywordGoals? at h
  dsimp only at h
  split at h
  -- `for`, `import` and `export` look at the word behind them
  case h_4 | h_13 | h_14 =>
    split_ifs at h
    all_goals
      cases h
      rfl
  case h_15 => cases h
  all_goals
    cases h
    rfl

theorem allPlain_forInGoals (t : Token) : Goal.allPlain (forInGoals t) = true := by
  simp only [forInGoals]
  split_ifs
  · rfl
  · rfl
  · rfl

theorem allPlain_forGoals (t : Token) : Goal.allPlain (forGoals t) = true := by
  simp only [forGoals]
  split_ifs
  · rw [Goal.allPlain_append, allPlain_variableGoals]
    rfl
  · rfl
  · rfl

theorem allPlain_filter (p : Goal → Bool) {goals : List Goal} (h : Goal.allPlain goals = true) :
    Goal.allPlain (goals.filter p) = true := by
  induction goals with
  | nil => rfl
  | cons goal goals ih =>
    rw [Goal.allPlain, Bool.and_eq_true] at h
    rw [List.filter_cons]
    split_ifs
    · rw [Goal.allPlain, h.1, ih h.2]
      rfl
    · exact ih h.2

theorem sound_wordStatement (h : s.Sound source) (t : Token) : (wordStatement s t).Sound source := by
  unfold wordStatement
  split
  next goals hgoals => exact h.push (allPlain_keywordGoals? hgoals)
  next =>
    split
    next goals hgoals =>
      refine h.push ?_
      rw [Goal.allPlain_append, allPlain_declarationGoals? hgoals]
      cases hkind : expressionKindOf? t with
      | none => rfl
      | some kind => simp [Goal.allPlain, Goal.isPlain, isString_of_expressionKindOf? hkind]
    next =>
      split_ifs
      · exact h.push rfl
      · exact h.push rfl

theorem keeps_statementStep (h : s.Sound source) : Keeps source (statementStep s) := by
  obtain ⟨t, s₁, hpeek, ht, h₁⟩ := h.peek .plain
  simp only [statementStep, hpeek]
  split
  · exact keeps_some.2 (sound_wordStatement h₁ t)
  · split_ifs
    all_goals exact keeps_some.2 (h₁.push rfl)
  · exact keeps_some.2 (h₁.push rfl)
  · exact keeps_some.2 (h₁.push rfl)
  · exact keeps_none

/-- the end of a block takes a semicolon that may be implied there -/
theorem sound_blockEndStep (h : s.Sound source) (use : BlockUse) : (blockEndStep use s).Sound source := by
  cases use with
  | statement => exact keeps_some.1 (keeps_build h (.impliedSemicolon (items s.frame).isEmpty) rfl)
  | operand => exact keeps_some.1 (keeps_build h (.impliedSemicolon true) rfl)
  | plain => exact keeps_some.1 (keeps_build h (.impliedSemicolon false) rfl)

theorem sound_declarationEndStep (h : s.Sound source) {kind : Kind} (hkind : kind.isString = false) :
    (declarationEndStep kind s).Sound source := by
  obtain ⟨t, s₁, hpeek, ht, h₁⟩ := h.peek (.afterOperand true)
  simp only [declarationEndStep, hpeek]
  split_ifs
  · exact (h₁.changeLast fun p hp => hp.withKind hkind).push rfl
  · exact h₁

theorem keeps_casesStep (h : s.Sound source) : Keeps source (casesStep s) := by
  obtain ⟨t, s₁, hpeek, ht, h₁⟩ := h.peek .plain
  simp only [casesStep, hpeek]
  split_ifs
  · exact keeps_some.2 (h₁.shiftMark ht)
  · exact keeps_some.2 (h₁.push rfl)
  · exact keeps_some.2 (h₁.push rfl)
  · exact keeps_none

theorem keeps_importClauseStep (h : s.Sound source) : Keeps source (importClauseStep s) := by
  obtain ⟨t, s₁, hpeek, ht, h₁⟩ := h.peek .plain
  simp only [importClauseStep, hpeek]
  split_ifs
  · exact keeps_some.2 (h₁.push rfl)
  · exact keeps_some.2 (h₁.push rfl)
  · exact keeps_some.2 (h₁.push rfl)
  · exact keeps_none

theorem keeps_exportRestStep (h : s.Sound source) : Keeps source (exportRestStep s) := by
  obtain ⟨t, s₁, hpeek, ht, h₁⟩ := h.peek .plain
  simp only [exportRestStep, hpeek]
  split_ifs
  · exact keeps_some.2 (h₁.push rfl)
  · exact keeps_some.2 (h₁.push rfl)
  · exact keeps_some.2 (h₁.push rfl)
  · exact keeps_some.2 ((h₁.shiftMark ht).push rfl)
  · exact keeps_some.2 (h₁.push rfl)
  · exact keeps_map fun goals hgoals => h₁.push (allPlain_declarationGoals? hgoals)

theorem keeps_statement (h : s.Sound source) (goal : StatementGoal) (hgoal : (Goal.statement goal).isPlain = true) :
    Keeps source (goal.step s) := by
  cases goal with
  | statement => exact keeps_statementStep h
  | statements inSwitch =>
    obtain ⟨t, s₁, hpeek, ht, h₁⟩ := h.peek .plain
    simp only [StatementGoal.step, hpeek, keeps_some]
    split_ifs
    · exact h₁
    · exact h₁.push rfl
  | semicolon operator =>
    obtain ⟨t, s₁, hpeek, ht, h₁⟩ := h.peek (.mayEnd operator)
    simp only [StatementGoal.step, hpeek]
    split_ifs
    · exact keeps_some.2 (h₁.shiftMark ht)
    · exact keeps_none
  | optionalSemicolon =>
    obtain ⟨t, s₁, hpeek, ht, h₁⟩ := h.peek (.mayEnd false)
    simp only [StatementGoal.step, hpeek, keeps_some]
    split_ifs
    · exact h₁.shiftMark ht
    · exact h₁
  | block use => exact keeps_some.2 (h.push rfl)
  | blockEnd use => exact keeps_some.2 (sound_blockEndStep h use)
  | blockSettled =>
    obtain ⟨t, s₁, hpeek, ht, h₁⟩ := h.peek (.afterOperand true)
    simp only [StatementGoal.step, hpeek]
    split_ifs
    · exact keeps_none
    · exact keeps_some.2 h₁
  | condition => exact keeps_some.2 (h.push rfl)
  | declarators c => exact keeps_some.2 (h.push rfl)
  | moreDeclarators c | initializer c =>
    obtain ⟨t, s₁, hpeek, ht, h₁⟩ := h.peek { semicolon := c.semicolon, operand := false }
    simp only [StatementGoal.step, hpeek, keeps_some]
    split_ifs
    · exact (h₁.shiftMark ht).push rfl
    · exact h₁
  | bindingTarget =>
    obtain ⟨t, s₁, hpeek, ht, h₁⟩ := h.peek .plain
    simp only [StatementGoal.step, hpeek]
    split_ifs
    · exact keeps_some.2 (h₁.push rfl)
    · exact keeps_some.2 (h₁.push rfl)
    · exact keeps_some.2 (h₁.shift ht rfl)
    · exact keeps_none
  | elseBranch | catchClause | catchParameter | finallyClause =>
    obtain ⟨t, s₁, hpeek, ht, h₁⟩ := h.peek .plain
    simp only [StatementGoal.step, hpeek, keeps_some]
    split_ifs
    · exact h₁.push rfl
    · exact h₁
  | declarationEnd kind =>
    exact keeps_some.2 (sound_declarationEndStep h (by simpa [Goal.isPlain] using hgoal))
  | forHead =>
    obtain ⟨t, s₁, hpeek, ht, h₁⟩ := h.peek .plain
    simp only [StatementGoal.step, hpeek, keeps_some]
    split_ifs
    · exact h₁.push (allPlain_forGoals t)
    · refine h₁.push ?_
      rw [Goal.allPlain, Goal.isPlain, allPlain_forInGoals, allPlain_forGoals]
      rfl
  | forAwaitHead =>
    obtain ⟨t, s₁, hpeek, ht, h₁⟩ := h.peek .plain
    simp only [StatementGoal.step, hpeek, keeps_some]
    exact h₁.push (allPlain_filter _ (allPlain_forInGoals t))
  | forCondition =>
    obtain ⟨t, s₁, hpeek, ht, h₁⟩ := h.peek .plain
    simp only [StatementGoal.step, hpeek, keeps_some]
    split_ifs
    · exact h₁.push rfl
    · exact h₁.push rfl
  | forIncrement =>
    obtain ⟨t, s₁, hpeek, ht, h₁⟩ := h.peek .plain
    simp only [StatementGoal.step, hpeek, keeps_some]
    split_ifs
    · exact h₁
    · exact h₁.push rfl
  | loopOperator ended =>
    obtain ⟨t, s₁, hpeek, ht, h₁⟩ := h.peek { semicolon := ended, operand := false }
    simp only [StatementGoal.step, hpeek]
    split_ifs
    · exact keeps_some.2 ((h₁.shiftMark ht).push rfl)
    · exact keeps_none
  | returnRest =>
    obtain ⟨t, s₁, hpeek, ht, h₁⟩ := h.peek (.mayEnd false)
    simp only [StatementGoal.step, hpeek, keeps_some]
    split_ifs
    · exact h₁
    · exact h₁.push rfl
  | jumpLabel =>
    obtain ⟨t, s₁, hpeek, ht, h₁⟩ := h.peek (.mayEnd false)
    simp only [StatementGoal.step, hpeek, keeps_some]
    split_ifs
    · exact h₁.shift ht rfl
    · exact h₁
  | cases => exact keeps_casesStep h
  | importClause => exact keeps_importClauseStep h
  | importMore | moduleAlias =>
    obtain ⟨t, s₁, hpeek, ht, h₁⟩ := h.peek .plain
    simp only [StatementGoal.step, hpeek, keeps_some]
    split_ifs
    · exact (h₁.shiftMark ht).push rfl
    · exact h₁
  | importNames =>
    obtain ⟨t, s₁, hpeek, ht, h₁⟩ := h.peek .plain
    simp only [StatementGoal.step, hpeek]
    split_ifs
    · exact keeps_some.2 (h₁.push rfl)
    · exact keeps_some.2 (h₁.push rfl)
  | importAttribute =>
    obtain ⟨t, s₁, hpeek, ht, h₁⟩ := h.peek (.mayEnd false)
    simp only [StatementGoal.step, hpeek, keeps_some]
    split_ifs
    · exact h₁.push rfl
    · exact h₁
  | moduleName =>
    obtain ⟨t, s₁, hpeek, ht, h₁⟩ := h.peek .plain
    simp only [StatementGoal.step, hpeek]
    split_ifs
    · exact keeps_some.2 (h₁.shift ht rfl)
    · exact keeps_some.2 (h₁.push rfl)
  | specifiers =>
    obtain ⟨t, s₁, hpeek, ht, h₁⟩ := h.peek .plain
    simp only [StatementGoal.step, hpeek]
    split_ifs
    · exact keeps_some.2 (h₁.shiftMark ht)
    · exact keeps_some.2 (h₁.push rfl)
  | specifierNext => exact keeps_listNext h _ rfl
  | exportRest => exact keeps_exportRestStep h
  | exportSource =>
    obtain ⟨t, s₁, hpeek, ht, h₁⟩ := h.peek (.mayEnd false)
    simp only [StatementGoal.step, hpeek, keeps_some]
    split_ifs
    · exact (h₁.shiftMark ht).push rfl
    · exact h₁
  | exportDefault =>
    obtain ⟨t, s₁, hpeek, ht, h₁⟩ := h.peek .plain
    simp only [StatementGoal.step, hpeek, keeps_some]
    split_ifs
    · cases hgoals : declarationGoals? t .operand with
      | none => exact h₁.push rfl
      | some goals => exact h₁.push (allPlain_declarationGoals? hgoals)
    · exact h₁.push rfl

/-- a step between two strings leads to a sound state, if it leads anywhere -/
theorem keeps_step (h : s.Sound source) (goal : Goal) (hgoal : goal.isPlain = true) : Keeps source (goal.step s) := by
  cases goal with
  | build goal => exact keeps_build h goal hgoal
  | expression goal => exact keeps_expression h goal
  | member goal => exact keeps_member h goal
  | literal goal => exact keeps_literal h goal hgoal
  | statement goal => exact keeps_statement h goal hgoal
  | either first second =>
    rw [Goal.isPlain, Bool.and_eq_true] at hgoal
    exact keeps_some.2 (h.push hgoal.1)
  | commit => exact keeps_some.2 h

end ScriptTriage.Reader

import ScriptTriage.Proofs.Reader.Statement
import ScriptTriage.Reader.Script

/-
Strings in a script. While the reader is inside the block of goals for a string, the innermost node holds a quote and
the parts behind it, laid out up to the cursor; when it leaves the block, it has written one more legible string. So
every state of a run is sound or on its way through one string, and in the end all strings of the tree are legible.

- `reading_step`: one step, whatever the goal.
- `sound_run`: a run that ends, choices that are undone included.
- `legible_ofString`: the tree of any source.
-/

namespace ScriptTriage.Reader

/-- a mark of one character as it stands in the source, which is this quote -/
def IsQuote (source : String) (quote : Char) (i : Nat) (p : Piece) : Prop :=
  (∃ text span, p.tree = .node (.other text) false false none span []) ∧ Covers source i (i + 1) p.tree ∧
    stretch source i (i + 1) = [quote]

/-- the pieces of a string that is not finished: comments, the quote, and parts that are laid out up to a place -/
def Begun (source : String) (quote : Char) (i n : Nat) (frame : List Piece) : Prop :=
  ∃ parts first comments, frame = parts ++ first :: comments ∧ IsQuote source quote i first ∧
    (∀ p ∈ comments, IsComment p.tree) ∧ (∀ p ∈ parts, Legible source p.tree) ∧
    LaidOut source (i + 1) (parts.map (·.tree)) n

/-- the reader is between two strings, or at one of the three goals inside the block for a string -/
inductive Reading (source : String) : State → Prop where
  | between {s} (h : s.Sound source) : Reading source s
  | opened {outer : State} {quote parts} (h : outer.Sound source) (hparts : IsParts quote parts) :
    Reading source { outer with
      goals := .mark (String.singleton quote) :: .literal parts :: .close .string :: outer.goals
      frames := [] :: outer.frames }
  | inside {outer : State} {quote parts i n frame} (h : outer.Sound source) (hparts : IsParts quote parts)
    (hcursor : outer.cursor = placeAt source n) (hframe : Begun source quote i n frame) :
    Reading source { outer with
      goals := .literal parts :: .close .string :: outer.goals, frames := frame :: outer.frames }
  | written {outer : State} {quote i j last frame} (h : outer.Sound source) (hframe : Begun source quote i j frame)
    (hlast : IsQuote source quote j last) :
    Reading source { outer with goals := .close .string :: outer.goals, frames := (last :: frame) :: outer.frames }

variable {source : String} {quote : Char} {i j n : Nat} {frame : List Piece} {s s' : State}

/-! ## Inside a string -/

theorem Begun.behind (h : Begun source quote i n frame) {p : Piece} (hlegible : Legible source p.tree)
    (hp : Covers source n j p.tree) : Begun source quote i j (p :: frame) := by
  obtain ⟨parts, first, comments, rfl, hfirst, hcomments, hparts, hlaid⟩ := h
  exact ⟨p :: parts, first, comments, rfl, hfirst, hcomments, List.forall_mem_cons.2 ⟨hlegible, hparts⟩,
    .behind hlaid hp le_rfl⟩

theorem Begun.comments (h : Begun source quote i n frame) {more : List Tree} (hmore : ∀ t ∈ more, IsComment t)
    (hlaid : LaidOut source n more j) : Begun source quote i j (more.map .ofComment ++ frame) := by
  obtain ⟨parts, first, comments, rfl, hfirst, hcomments, hparts, hparts'⟩ := h
  refine ⟨more.map .ofComment ++ parts, first, comments, by simp, hfirst, hcomments, ?_, ?_⟩
  · refine List.forall_mem_append.2 ⟨fun p hp => ?_, hparts⟩
    obtain ⟨t, ht, rfl⟩ := List.mem_map.1 hp
    exact (hmore t ht).legible
  · have hmap : (more.map Piece.ofComment).map (·.tree) = more := by simp [Piece.ofComment, Function.comp_def]
    rw [List.map_append, hmap]
    exact hparts'.append hlaid

/-- a look ahead from the innermost node: comments are laid out behind the cursor, and the token follows -/
theorem peek_innermost (outer : State) (hcursor : outer.cursor = placeAt source n) (goals : List Goal)
    (frame : List Piece) (e : Expectation) :
    ∃ t comments m markup, { outer with goals, frames := frame :: outer.frames }.peek e =
        (t, { outer with cursor := placeAt source m, markup, goals,
                         frames := (comments.map .ofComment ++ frame) :: outer.frames }) ∧
      (∀ t ∈ comments, IsComment t) ∧ LaidOut source n comments m ∧ t.Follows (placeAt source m) := by
  have hplaced := placed_next source n e outer.markup
  obtain ⟨m, hlaid, hbase⟩ := hplaced.base
  refine ⟨_, _, m, outer.markup && !e.semicolon && !e.operator, ?_, hplaced.comments, hlaid, hbase ▸ hplaced.token⟩
  rw [← hbase, ← hcursor]
  rfl

/-- the quote as a token, and the node that is made of it -/
theorem isQuote_of_isMark {t : Token} (ht : t.Follows (placeAt source n))
    (hmark : t.isMark (String.singleton quote) = true) :
    ∃ j, n ≤ j ∧ t.stop = placeAt source (j + 1) ∧
      IsQuote source quote j { tree := .node (.other t.text) false false none t.span [] } := by
  obtain ⟨m, -, hstart, -⟩ := ht.places
  obtain ⟨hstarts, hstop⟩ := ht.spelled _ hmark
  rw [advance_placeAt] at hstart
  have hstop : t.stop = placeAt source (n + m + 1) := by
    rw [hstop, hstart, advance_placeAt]
    simp
  have hquote : [quote] <+: (placeAt source (n + m)).rest := by simpa [hstart] using hstarts
  refine ⟨n + m, Nat.le_add_right n m, hstop, ⟨_, _, rfl⟩, ⟨Nat.le_succ _, ?_⟩, stretch_of_prefix hquote⟩
  rw [← hstart, ← hstop]
  rfl

/-- the opening quote, behind comments -/
theorem reading_mark {outer : State} (h : outer.Sound source) {parts : LiteralGoal} (hparts : IsParts quote parts)
    (hs : BuildGoal.step { outer with goals := .literal parts :: .close .string :: outer.goals,
                                      frames := [] :: outer.frames } (.mark (String.singleton quote)) = some s') :
    Reading source s' := by
  obtain ⟨n, hn⟩ := h.cursor
  obtain ⟨t, comments, m, markup, hpeek, hcomments, -, ht⟩ :=
    peek_innermost outer hn (.literal parts :: .close .string :: outer.goals) [] .plain
  simp only [BuildGoal.step, hpeek] at hs
  split_ifs at hs with hmark
  cases hs
  obtain ⟨j, -, hstop, hquote⟩ := isQuote_of_isMark ht hmark
  have hbegun : Begun source quote j (j + 1)
      ({ tree := .node (.other t.text) false false none t.span [] } :: (comments.map .ofComment ++ [])) := by
    refine ⟨[], _, comments.map .ofComment ++ [], rfl, hquote, fun p hp => ?_, by simp, .none le_rfl⟩
    obtain ⟨t, ht, rfl⟩ := List.mem_map.1 (List.append_nil _ ▸ hp)
    exact hcomments t ht
  exact .inside (h.moveTo ⟨j + 1, hstop⟩ true) hparts hstop hbegun

/-- one more part of the string, right at the cursor -/
theorem reading_part {outer : State} (h : outer.Sound source) {parts : LiteralGoal} (hparts : IsParts quote parts)
    (hcursor : outer.cursor = placeAt source n) (hframe : Begun source quote i n frame) {kind : Kind}
    (hkind : kind.isString = false) (named : Bool) (m : Nat) :
    Reading source (({ outer with goals := .close .string :: outer.goals, frames := frame :: outer.frames }.shiftLength
      kind named m).push [.literal parts]) := by
  have hstop : outer.cursor.advance m = placeAt source (n + m) := by rw [hcursor, advance_placeAt]
  refine .inside (h.moveTo ⟨_, hstop⟩ true) hparts hstop (hframe.behind (legible_leaf hkind) ?_)
  refine ⟨Nat.le_add_right n m, ?_⟩
  rw [← hstop, ← hcursor]
  rfl

/-- the parts of a string: one more of them, or the closing quote, behind comments -/
theorem reading_stringParts {outer : State} (h : outer.Sound source) (hcursor : outer.cursor = placeAt source n)
    (hframe : Begun source quote i n frame)
    (hs : stringPartsStep quote { outer with goals := .close .string :: outer.goals,
                                             frames := frame :: outer.frames } = some s') : Reading source s' := by
  obtain ⟨t, comments, m, markup, hpeek, hcomments, hlaid, ht⟩ :=
    peek_innermost { outer with markup := false } hcursor (.close .string :: outer.goals) frame .plain
  simp only [stringPartsStep, hpeek] at hs
  split_ifs at hs with _ _ hmark
  · cases hs
    exact reading_part h (.inl rfl) hcursor hframe rfl true _
  · cases hs
    exact reading_part h (.inl rfl) hcursor hframe rfl true _
  · cases hs
    obtain ⟨j, hmj, hstop, hquote⟩ := isQuote_of_isMark ht hmark
    exact .written (h.moveTo ⟨j + 1, hstop⟩ true) (hframe.comments hcomments (hlaid.mono hmj)) hquote

/-- the parts of an attribute's value: one more of them, or the closing quote -/
theorem reading_attributeParts {outer : State} (h : outer.Sound source) (hcursor : outer.cursor = placeAt source n)
    (hframe : Begun source quote i n frame)
    (hs : attributePartsStep quote { outer with goals := .close .string :: outer.goals,
                                                frames := frame :: outer.frames } = some s') : Reading source s' := by
  simp only [attributePartsStep] at hs
  split_ifs at hs with _ _ hhead
  · cases hs
    exact reading_part h (.inr rfl) hcursor hframe rfl true _
  · cases hs
    exact reading_part h (.inr rfl) hcursor hframe rfl true _
  · cases hs
    have hstop : outer.cursor.advance 1 = placeAt source (n + 1) := by rw [hcursor, advance_placeAt]
    have hstarts : [quote] <+: (placeAt source n).rest := by
      obtain ⟨rest, hrest⟩ := List.head?_eq_some_iff.1 hhead
      exact ⟨rest, by rw [← hcursor, hrest]; rfl⟩
    refine .written (h.moveTo ⟨_, hstop⟩ true) hframe ⟨⟨_, _, rfl⟩, ⟨Nat.le_succ n, ?_⟩, stretch_of_prefix hstarts⟩
    rw [← hstop, ← hcursor]
    rfl

/-! ## The end of a string -/

theorem IsQuote.extra {p : Piece} (h : IsQuote source quote i p) : p.extra = false := by
  obtain ⟨⟨text, span, htree⟩, -⟩ := h
  rw [Piece.extra, htree]
  rfl

theorem IsQuote.named {p : Piece} (h : IsQuote source quote i p) : p.tree.named = false := by
  obtain ⟨⟨text, span, htree⟩, -⟩ := h
  rw [htree]
  rfl

theorem IsQuote.legible {p : Piece} (h : IsQuote source quote i p) : Legible source p.tree := by
  obtain ⟨⟨text, span, htree⟩, -⟩ := h
  rw [htree]
  exact legible_leaf rfl

theorem Begun.legible (h : Begun source quote i n frame) : ∀ p ∈ frame, Legible source p.tree := by
  obtain ⟨parts, first, comments, rfl, hfirst, hcomments, hparts, -⟩ := h
  refine List.forall_mem_append.2 ⟨hparts, List.forall_mem_cons.2 ⟨hfirst.legible, ?_⟩⟩
  exact fun p hp => (hcomments p hp).legible

/-- the children of a finished string: comments in front of the quote stay outside -/
theorem children_closeString {parts comments : List Piece} {first last : Piece} (hfirst : first.extra = false)
    (hlast : last.extra = false) (hcomments : ∀ p ∈ comments, IsComment p.tree) :
    (((last :: (parts ++ first :: comments)).dropWhile (·.extra)).reverse).dropWhile (·.extra) =
      first :: (parts.reverse ++ [last]) := by
  have hextra : ∀ p ∈ comments.reverse, p.extra = true := by
    intro p hp
    obtain ⟨name, span, htree⟩ := hcomments p (List.mem_reverse.1 hp)
    rw [Piece.extra, htree]
    rfl
  rw [List.dropWhile_cons_of_neg (by simp [hlast]), List.reverse_cons, List.reverse_append, List.reverse_cons,
    List.append_assoc, List.append_assoc, List.dropWhile_append_of_pos hextra, List.singleton_append,
    List.dropWhile_cons_of_neg (by simp [hfirst])]

/-- the node that is made of a finished string is written as strings are -/
theorem legible_closeString {last : Piece} {c : Closed} (hframe : Begun source quote i j frame)
    (hlast : IsQuote source quote j last) (hc : closeFrame? .string (last :: frame) = some c) :
    ∀ p ∈ c.behind ++ c.node :: c.before.reverse, Legible source p.tree := by
  obtain ⟨children, a, b, hpieces, ha, hb, -, hchildren, hnode⟩ := closeFrame?_spec hc
  have hall : ∀ p ∈ last :: frame, Legible source p.tree := List.forall_mem_cons.2 ⟨hlast.legible, hframe.legible⟩
  rw [hpieces] at hall
  simp only [List.reverse_append, List.forall_mem_append, List.mem_reverse] at hall
  obtain ⟨hbehind, hlegible, hbefore⟩ := hall
  refine List.forall_mem_append.2 ⟨hbehind, List.forall_mem_cons.2 ⟨?_, fun p hp => hbefore p (List.mem_reverse.1 hp)⟩⟩
  obtain ⟨parts, first, comments, rfl, hfirst, hcomments, -, hlaid⟩ := hframe
  rw [children_closeString hfirst.extra hlast.extra hcomments] at hchildren
  subst hchildren
  obtain rfl : first = a := Option.some.inj ha
  rw [← List.cons_append, List.getLast?_concat] at hb
  obtain rfl : last = b := Option.some.inj hb
  rw [hnode]
  refine .node (fun _ => ?_) fun t ht => ?_
  · refine ⟨quote, i, j, first.tree, parts.map (·.tree), last.tree, ⟨?_, ?_⟩, by simp [Tree.children], hfirst.named,
      hlast.named, hfirst.2.2, hlast.2.2, hlaid⟩
    · have := hlaid.le
      omega
    · rw [Tree.span, hfirst.2.1.2, hlast.2.1.2]
  · obtain ⟨p, hp, rfl⟩ := List.mem_map.1 ht
    exact hlegible p hp

/-! ## Runs -/

/-- one step of the reader, whatever the goal -/
theorem reading_step (h : Reading source s) {goal : Goal} {goals : List Goal} (hgoals : s.goals = goal :: goals)
    (hs : goal.step { s with goals } = some s') : Reading source s' := by
  cases h with
  | between h =>
    have hproper := h.goals
    rw [hgoals] at hproper
    cases hproper with
    | plain hgoal hrest => exact .between (keeps_step (h.withGoals hrest) goal hgoal s' hs)
    | string hparts hrest =>
      cases hs
      exact .opened (h.withGoals hrest) hparts
  | opened h hparts =>
    cases hgoals
    exact reading_mark h hparts hs
  | inside h hparts hcursor hframe =>
    cases hgoals
    rcases hparts with rfl | rfl
    · exact reading_stringParts h hcursor hframe hs
    · exact reading_attributeParts h hcursor hframe hs
  | written h hframe hlast =>
    cases hgoals
    obtain ⟨c, hc, rfl⟩ := Option.map_eq_some_iff.1 hs
    exact .between (h.gather (legible_closeString hframe hlast hc))

/-- where the first goal is a choice, both lists of goals can be taken -/
theorem reading_either (h : Reading source s) {first second goals : List Goal}
    (hgoals : s.goals = .either first second :: goals) :
    Reading source ({ s with goals }.push first) ∧ Reading source ({ s with goals }.push second) := by
  cases h with
  | between h =>
    have hproper := h.goals
    rw [hgoals] at hproper
    cases hproper with
    | plain hgoal hrest =>
      rw [Goal.isPlain, Bool.and_eq_true] at hgoal
      have h := h.withGoals hrest
      exact ⟨.between (h.push hgoal.1), .between (h.push hgoal.2)⟩
  | _ => cases hgoals

/-- with no goal left, the reader is between two strings -/
theorem sound_of_reading (h : Reading source s) (hgoals : s.goals = []) : s.Sound source := by
  cases h with
  | between h => exact h
  | _ => cases hgoals

/-- a run that ends leads to a sound state, whichever choices were undone -/
theorem sound_run {fuel : Nat} {choices : List State} (h : Reading source s)
    (hchoices : ∀ c ∈ choices, Reading source c) (hs : run fuel s choices = some s') : s'.Sound source := by
  fun_induction run fuel s choices with
  | case1 => cases hs
  | case2 fuel s choices hgoals =>
    cases hs
    exact sound_of_reading h hgoals
  | case3 =>
    rename_i hgoals _ ih
    obtain ⟨hfirst, hsecond⟩ := reading_either h hgoals
    exact ih hfirst (List.forall_mem_cons.2 ⟨hsecond, hchoices⟩) hs
  | case4 fuel s choices goals hgoals ih =>
    exact ih (reading_step h hgoals rfl) (fun c hc => hchoices c (List.mem_of_mem_tail hc)) hs
  | case5 fuel s choices goal goals _ _ hgoals next hnext ih => exact ih (reading_step h hgoals hnext) hchoices hs
  | case6 fuel s goal goals _ _ _ _ choice choices ih =>
    rw [List.forall_mem_cons] at hchoices
    exact ih hchoices.1 hchoices.2 hs
  | case7 => cases hs

/-! ## Scripts -/

theorem exists_skipStatement (fuel : Nat) {c : Cursor} (hc : ∃ n, c = placeAt source n) :
    ∃ n, skipStatement fuel c = placeAt source n := by
  induction fuel generalizing c with
  | zero => exact hc
  | succ fuel ih =>
    obtain ⟨n, rfl⟩ := hc
    obtain ⟨-, j, -, hstop⟩ := sighted_next source n .plain false
    simp only [skipStatement]
    split_ifs
    · exact ⟨j, hstop⟩
    · exact ih ⟨j, hstop⟩

theorem exists_skipUnreadable (fuel : Nat) {t : Token} (ht : Sighted source t) :
    ∃ n, skipUnreadable fuel t = placeAt source n := by
  obtain ⟨i, j, hstart, hstop⟩ := ht
  unfold skipUnreadable
  split_ifs
  · exact ⟨j, hstop⟩
  · exact exists_skipStatement fuel ⟨i, hstart⟩

theorem sound_readGoals {fuel : Nat} {goals : List Goal} (hgoals : Goal.allPlain goals = true) {c : Cursor}
    (hc : ∃ n, c = placeAt source n) {markup : Bool} (hs : readGoals fuel goals c markup = some s') :
    s'.Sound source := by
  have hproper : Proper goals := by simpa using Proper.append hgoals .nil
  exact sound_run (.between ⟨hc, by simp, hproper⟩) (by simp) hs

theorem sound_readStatements (budget fuel : Nat) {p : Progress} (h : p.state.Sound source) :
    (readStatements budget fuel p).state.Sound source := by
  induction fuel generalizing p with
  | zero => exact h
  | succ fuel ih =>
    obtain ⟨t, s, hpeek, ht, hs⟩ := h.peek .plain
    simp only [readStatements, hpeek]
    split_ifs
    · exact hs
    · split
      next read hread =>
        have hsound := sound_readGoals rfl hs.cursor hread
        exact ih ((hs.gather hsound.frame).moveTo hsound.cursor read.markup)
      next => exact ih (hs.take (legible_leaf rfl) (exists_skipUnreadable _ ht))

theorem sound_readInterpreterLine (h : s.Sound source) : (readInterpreterLine s).Sound source := by
  obtain ⟨t, s₁, hpeek, ht, h₁⟩ := h.peek .plain
  simp only [readInterpreterLine, hpeek]
  split_ifs
  · exact (h₁.atStart ht).shiftLength rfl true _
  · exact h₁

/-- in the tree of any source, all strings are written as strings are -/
theorem legible_ofString (source : String) : Legible source (SyntaxTree.ofString source).root := by
  have hstart : State.Sound source ⟨Cursor.ofString source, true, [], [[]]⟩ := ⟨⟨0, rfl⟩, by simp, .nil⟩
  have hread := sound_readStatements (stepBudget (Cursor.ofString source).rest.length)
    ((Cursor.ofString source).rest.length + 1) (p := ⟨_, false⟩) (sound_readInterpreterLine hstart)
  refine legible_of_ne rfl fun t ht => ?_
  obtain ⟨p, hp, rfl⟩ := List.mem_map.1 ht
  exact hread.frame p (List.mem_reverse.1 hp)

end ScriptTriage.Reader

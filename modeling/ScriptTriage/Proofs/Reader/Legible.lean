import ScriptTriage.Proofs.Reader.Place
import ScriptTriage.Reader.Goal

/-
Strings as they are written. In a tree that the reader makes, each string has a quote, parts laid out behind each other
and the same quote again. Only one block of goals makes a string, and it is never interrupted; all other goals leave
strings as they are.

- `Quoted`, `Legible`: how a string is written, and trees in which all strings are written so.
- `Goal.isPlain`, `Proper`: goals that make no string by themselves, and lists of them with blocks for strings in between.
- `State.Sound`: the cursor is a place of the source, all pieces are legible, and the goals are proper. What the reader
  does with a state between two blocks keeps it so (`Sound.push`, `Sound.shift` and the like).
-/

namespace ScriptTriage

def Kind.isString : Kind → Bool
  | .string => true
  | _ => false

theorem Kind.ne_string {kind : Kind} (h : kind.isString = false) : kind ≠ .string := by
  rintro rfl
  cases h

namespace Reader

/-- a string as it is written: a quote, parts laid out behind each other, and the same quote -/
def Quoted (source : String) (t : Tree) : Prop :=
  ∃ quote i j first parts last, Covers source i (j + 1) t ∧ t.children = first :: (parts.reverse ++ [last]) ∧
    first.named = false ∧ last.named = false ∧ stretch source i (i + 1) = [quote] ∧ stretch source j (j + 1) = [quote] ∧
    LaidOut source (i + 1) parts j

/-- all strings in the tree are written as strings are -/
inductive Legible (source : String) : Tree → Prop where
  | node {kind named extra role span children}
    (hstring : kind = .string → Quoted source (.node kind named extra role span children))
    (hchildren : ∀ c ∈ children, Legible source c) : Legible source (.node kind named extra role span children)

variable {source : String} {t : Tree}

theorem Legible.quoted (h : Legible source t) (ht : t.kind = .string) : Quoted source t := by
  cases h with
  | node hstring _ => exact hstring ht

theorem Legible.children (h : Legible source t) : ∀ c ∈ t.children, Legible source c := by
  cases h with
  | node _ hchildren => exact hchildren

theorem legible_of_ne {kind : Kind} {named extra : Bool} {role : Option Role} {span : Span} {children : List Tree}
    (hkind : kind.isString = false) (h : ∀ c ∈ children, Legible source c) :
    Legible source (.node kind named extra role span children) :=
  .node (fun hstring => absurd hstring (Kind.ne_string hkind)) h

theorem legible_leaf {kind : Kind} {named extra : Bool} {role : Option Role} {span : Span} (hkind : kind.isString = false) :
    Legible source (.node kind named extra role span []) :=
  legible_of_ne hkind (by simp)

theorem IsComment.legible (h : IsComment t) : Legible source t := by
  obtain ⟨name, span, rfl⟩ := h
  exact legible_leaf rfl

theorem Legible.withRole (h : Legible source t) (role : Role) : Legible source (t.withRole role) := by
  cases h with
  | node hstring hchildren => exact .node hstring hchildren

theorem Legible.withKind (h : Legible source t) {kind : Kind} (hkind : kind.isString = false) :
    Legible source (t.withKind kind) := by
  cases h with
  | node _ hchildren => exact legible_of_ne hkind hchildren

mutual

/-- read as a pattern, a tree keeps its strings -/
theorem Legible.toPattern {t : Tree} (h : Legible source t) : Legible source t.toPattern := by
  cases t with
  | node kind named extra role span children =>
    rw [Tree.toPattern]
    have hpatterns := Legible.toPatterns h.children
    split_ifs with harray hobject hpair hspread hassignment hshorthand
    · exact legible_of_ne rfl hpatterns
    · exact legible_of_ne rfl hpatterns
    · exact legible_of_ne rfl hpatterns
    · exact legible_of_ne rfl hpatterns
    · exact legible_of_ne rfl h.children
    · exact legible_of_ne rfl h.children
    · exact h

theorem Legible.toPatterns {ts : List Tree} (h : ∀ t ∈ ts, Legible source t) :
    ∀ t ∈ Tree.toPatterns ts, Legible source t := by
  cases ts with
  | nil => simp [Tree.toPatterns]
  | cons t ts =>
    rw [Tree.toPatterns, List.forall_mem_cons]
    exact ⟨Legible.toPattern (h t (List.mem_cons_self ..)),
      Legible.toPatterns fun u hu => h u (List.mem_cons_of_mem _ hu)⟩

end

/-! ## Goals -/

mutual

/-- does the goal make no string by itself? -/
def Goal.isPlain : Goal → Bool
  | .build (.close kind) | .build (.name kind) | .statement (.declarationEnd kind) => !kind.isString
  | .literal (.stringParts _) | .literal (.attributeParts _) => false
  | .either first second => Goal.allPlain first && Goal.allPlain second
  | _ => true

def Goal.allPlain : List Goal → Bool
  | [] => true
  | goal :: goals => goal.isPlain && Goal.allPlain goals

end

/-- the goal reads the parts of a string up to this quote -/
def IsParts (quote : Char) (goal : LiteralGoal) : Prop := goal = .stringParts quote ∨ goal = .attributeParts quote

/-- plain goals, with whole blocks for strings in between -/
inductive Proper : List Goal → Prop where
  | nil : Proper []
  | plain {goal goals} (hgoal : goal.isPlain = true) (h : Proper goals) : Proper (goal :: goals)
  | string {quote parts goals} (hparts : IsParts quote parts) (h : Proper goals) :
    Proper (.start :: .mark (String.singleton quote) :: .literal parts :: .close .string :: goals)

theorem Goal.allPlain_append (first second : List Goal) :
    Goal.allPlain (first ++ second) = (Goal.allPlain first && Goal.allPlain second) := by
  induction first with
  | nil => simp [Goal.allPlain]
  | cons goal goals ih => simp [Goal.allPlain, ih, Bool.and_assoc]

theorem Proper.append {first second : List Goal} (hfirst : Goal.allPlain first = true) (h : Proper second) :
    Proper (first ++ second) := by
  induction first with
  | nil => exact h
  | cons goal goals ih =>
    rw [Goal.allPlain, Bool.and_eq_true] at hfirst
    exact .plain hfirst.1 (ih hfirst.2)

/-! ## States -/

/-- the token stands between two places of the source -/
def Sighted (source : String) (t : Token) : Prop := ∃ i j, t.start = placeAt source i ∧ t.stop = placeAt source j

theorem sighted_next (source : String) (n : Nat) (e : Expectation) (markup : Bool) :
    Sighted source ((placeAt source n).next e markup).token := by
  have hplaced := placed_next source n e markup
  obtain ⟨m, -, hbase⟩ := hplaced.base
  obtain ⟨i, k, hstart, hstop⟩ := hplaced.token.places
  rw [hbase, advance_placeAt] at hstart hstop
  exact ⟨_, _, hstart, hstop⟩

/-- the cursor is a place of the source, all pieces are legible, and the goals are proper -/
structure State.Sound (source : String) (s : State) : Prop where
  cursor : ∃ n, s.cursor = placeAt source n
  legible : ∀ frame ∈ s.frames, ∀ p ∈ frame, Legible source p.tree
  goals : Proper s.goals

/-- the pieces of a frame up to the last one that is no comment, that one, and the rest -/
theorem legible_split {frame rest : List Piece} {p : Piece} (h : ∀ q ∈ frame, Legible source q.tree)
    (hrest : frame.dropWhile (·.extra) = p :: rest) :
    (∀ q ∈ frame.takeWhile (·.extra), Legible source q.tree) ∧ Legible source p.tree ∧
      ∀ q ∈ rest, Legible source q.tree := by
  have hdrop : ∀ q ∈ p :: rest, Legible source q.tree :=
    fun q hq => h q ((List.dropWhile_suffix _).subset (hrest ▸ hq))
  rw [List.forall_mem_cons] at hdrop
  exact ⟨fun q hq => h q ((List.takeWhile_prefix _).subset hq), hdrop⟩

/-- a node that is closed has the pieces between the comments at either end, and reaches from the first to the last -/
theorem closeFrame?_spec {kind : Kind} {frame : List Piece} {c : Closed} (h : closeFrame? kind frame = some c) :
    ∃ children first last, frame = c.behind ++ (c.before ++ children).reverse ∧ children.head? = some first ∧
      children.getLast? = some last ∧ c.behind = frame.takeWhile (·.extra) ∧
      children = ((frame.dropWhile (·.extra)).reverse).dropWhile (·.extra) ∧
      c.node.tree = .node kind true false none ⟨first.tree.span.start, last.tree.span.stop⟩ (children.map (·.tree)) := by
  unfold closeFrame? at h
  dsimp only at h
  split at h
  next first last _ _ hfirst hlast _ =>
    cases h
    refine ⟨_, first, last, ?_, hfirst, hlast, rfl, rfl, rfl⟩
    rw [List.takeWhile_append_dropWhile, List.reverse_reverse, List.takeWhile_append_dropWhile]
  next => cases h

theorem legible_closeFrame? {kind : Kind} {frame : List Piece} {c : Closed} (hkind : kind.isString = false)
    (hframe : ∀ p ∈ frame, Legible source p.tree) (h : closeFrame? kind frame = some c) :
    ∀ p ∈ c.behind ++ c.node :: c.before.reverse, Legible source p.tree := by
  obtain ⟨children, first, last, hpieces, -, -, -, -, hnode⟩ := closeFrame?_spec h
  rw [hpieces] at hframe
  simp only [List.reverse_append, List.forall_mem_append, List.mem_reverse] at hframe
  obtain ⟨hbehind, hchildren, hbefore⟩ := hframe
  refine List.forall_mem_append.2 ⟨hbehind, List.forall_mem_cons.2 ⟨?_, fun p hp => hbefore p (List.mem_reverse.1 hp)⟩⟩
  rw [hnode]
  refine legible_of_ne hkind fun t ht => ?_
  obtain ⟨p, hp, rfl⟩ := List.mem_map.1 ht
  exact hchildren p hp

namespace State

variable {s : State}

theorem frames_gather (s : State) (pieces : List Piece) :
    (s.gather pieces).frames = (pieces ++ s.frame) :: s.frames.tail := by
  unfold gather frame
  cases s.frames <;> simp

@[simp] theorem cursor_gather (s : State) (pieces : List Piece) : (s.gather pieces).cursor = s.cursor := by
  unfold gather
  cases s.frames <;> rfl

@[simp] theorem goals_gather (s : State) (pieces : List Piece) : (s.gather pieces).goals = s.goals := by
  unfold gather
  cases s.frames <;> rfl

namespace Sound

theorem frame (h : s.Sound source) : ∀ p ∈ s.frame, Legible source p.tree := by
  intro p hp
  unfold State.frame at hp
  cases hframes : s.frames with
  | nil => simp [hframes] at hp
  | cons frame frames =>
    rw [hframes] at hp
    exact h.legible frame (hframes ▸ List.mem_cons_self ..) p hp

theorem tail (h : s.Sound source) : ∀ frame ∈ s.frames.tail, ∀ p ∈ frame, Legible source p.tree :=
  fun frame hframe => h.legible frame (List.mem_of_mem_tail hframe)

theorem withFrames (h : s.Sound source) {frames : List (List Piece)}
    (hframes : ∀ frame ∈ frames, ∀ p ∈ frame, Legible source p.tree) : { s with frames }.Sound source :=
  ⟨h.cursor, hframes, h.goals⟩

theorem withGoals (h : s.Sound source) {goals : List Goal} (hgoals : Proper goals) : { s with goals }.Sound source :=
  ⟨h.cursor, h.legible, hgoals⟩

theorem push (h : s.Sound source) {goals : List Goal} (hgoals : Goal.allPlain goals = true) :
    (s.push goals).Sound source :=
  h.withGoals (h.goals.append hgoals)

theorem gather (h : s.Sound source) {pieces : List Piece} (hpieces : ∀ p ∈ pieces, Legible source p.tree) :
    (s.gather pieces).Sound source := by
  refine ⟨by simpa using h.cursor, ?_, by simpa using h.goals⟩
  rw [frames_gather, List.forall_mem_cons]
  exact ⟨List.forall_mem_append.2 ⟨hpieces, h.frame⟩, h.tail⟩

/-- look at the next token -/
theorem peek (h : s.Sound source) (e : Expectation) :
    ∃ t s', s.peek e = (t, s') ∧ Sighted source t ∧ s'.Sound source := by
  obtain ⟨n, hn⟩ := h.cursor
  have hplaced := placed_next source n e s.markup
  rw [← hn] at hplaced
  obtain ⟨m, -, hbase⟩ := hplaced.base
  have hcomments : ∀ p ∈ (s.cursor.next e s.markup).comments.map Piece.ofComment, Legible source p.tree := by
    intro p hp
    obtain ⟨t, ht, rfl⟩ := List.mem_map.1 hp
    exact (hplaced.comments t ht).legible
  have hgather := h.gather hcomments
  exact ⟨_, _, rfl, hn ▸ sighted_next source n e s.markup, ⟨m, hbase⟩, hgather.legible, hgather.goals⟩

theorem take (h : s.Sound source) {p : Piece} (hp : Legible source p.tree) {stop : Cursor}
    (hstop : ∃ n, stop = placeAt source n) : (s.take p stop).Sound source := by
  have hgather := h.gather (List.forall_mem_singleton.2 hp)
  exact ⟨hstop, hgather.legible, hgather.goals⟩

theorem shiftMark (h : s.Sound source) {t : Token} (ht : Sighted source t) : (s.shiftMark t).Sound source := by
  obtain ⟨-, j, -, hstop⟩ := ht
  exact h.take (legible_leaf rfl) ⟨j, hstop⟩

theorem shift (h : s.Sound source) {t : Token} (ht : Sighted source t) {kind : Kind} (hkind : kind.isString = false) :
    (s.shift kind t).Sound source := by
  obtain ⟨-, j, -, hstop⟩ := ht
  exact h.take (legible_leaf hkind) ⟨j, hstop⟩

theorem shiftLength (h : s.Sound source) {kind : Kind} (hkind : kind.isString = false) (named : Bool) (n : Nat) :
    (s.shiftLength kind named n).Sound source := by
  obtain ⟨m, hm⟩ := h.cursor
  exact h.take (legible_leaf hkind) ⟨m + n, by rw [hm, advance_placeAt]⟩

/-- go on at another place -/
theorem moveTo (h : s.Sound source) {c : Cursor} (hc : ∃ n, c = placeAt source n) (markup : Bool) :
    { s with cursor := c, markup }.Sound source :=
  ⟨hc, h.legible, h.goals⟩

/-- go on right at the token -/
theorem atStart (h : s.Sound source) {t : Token} (ht : Sighted source t) :
    { s with cursor := t.start }.Sound source := by
  obtain ⟨i, -, hstart, -⟩ := ht
  exact h.moveTo ⟨i, hstart⟩ s.markup

/-- a new node -/
theorem startNode (h : s.Sound source) : { s with frames := [] :: s.frames }.Sound source :=
  h.withFrames (List.forall_mem_cons.2 ⟨by simp, h.legible⟩)

theorem last? (h : s.Sound source) {p : Piece} (hp : s.last? = some p) : Legible source p.tree :=
  h.frame p (List.mem_of_find?_eq_some hp)

theorem changeLast (h : s.Sound source) {f : Piece → Piece}
    (hf : ∀ p, Legible source p.tree → Legible source (f p).tree) : (s.changeLast f).Sound source := by
  unfold State.changeLast
  split
  next frame frames hframes =>
    have hlegible := h.legible
    rw [hframes, List.forall_mem_cons] at hlegible
    dsimp only
    split
    next p rest hrest =>
      obtain ⟨hcomments, hp, htail⟩ := legible_split hlegible.1 hrest
      exact h.withFrames (List.forall_mem_cons.2
        ⟨List.forall_mem_append.2 ⟨hcomments, List.forall_mem_cons.2 ⟨hf p hp, htail⟩⟩, hlegible.2⟩)
    next => exact h
  next => exact h

theorem changeFirst (h : s.Sound source) {f : Tree → Tree} (hf : ∀ t, Legible source t → Legible source (f t)) :
    (s.changeFirst f).Sound source := by
  unfold State.changeFirst
  split
  next frame frames hframes =>
    have hlegible := h.legible
    rw [hframes, List.forall_mem_cons] at hlegible
    split
    next first rest hfirst =>
      have hall : ∀ q ∈ first :: rest, Legible source q.tree :=
        fun q hq => hlegible.1 q (List.mem_reverse.1 (hfirst ▸ hq))
      rw [List.forall_mem_cons] at hall
      refine h.withFrames (List.forall_mem_cons.2 ⟨fun q hq => ?_, hlegible.2⟩)
      rcases List.mem_cons.1 (List.mem_reverse.1 hq) with rfl | hq
      · exact hf _ hall.1
      · exact hall.2 q hq
    next => exact h
  next => exact h

theorem wrap (h : s.Sound source) {s' : State} (hs : s.wrap = some s') : s'.Sound source := by
  unfold State.wrap at hs
  split at hs
  next frame frames hframes =>
    have hlegible := h.legible
    rw [hframes, List.forall_mem_cons] at hlegible
    dsimp only at hs
    split at hs
    next p rest hrest =>
      cases hs
      obtain ⟨hcomments, hp, htail⟩ := legible_split hlegible.1 hrest
      exact h.withFrames (List.forall_mem_cons.2
        ⟨List.forall_mem_append.2 ⟨hcomments, List.forall_mem_singleton.2 hp⟩,
          List.forall_mem_cons.2 ⟨htail, hlegible.2⟩⟩)
    next => cases hs
  next => cases hs

theorem close (h : s.Sound source) {kind : Kind} (hkind : kind.isString = false) {s' : State}
    (hs : s.close kind = some s') : s'.Sound source := by
  unfold State.close at hs
  split at hs
  next frame frames hframes =>
    have hlegible := h.legible
    rw [hframes, List.forall_mem_cons] at hlegible
    obtain ⟨c, hc, rfl⟩ := Option.map_eq_some_iff.1 hs
    exact (h.withFrames hlegible.2).gather (legible_closeFrame? hkind hlegible.1 hc)
  next => cases hs

end Sound

end State

end Reader

end ScriptTriage

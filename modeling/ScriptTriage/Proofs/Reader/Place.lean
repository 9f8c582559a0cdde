import Mathlib.Data.String.Basic
import ScriptTriage.Reader.Token

/-
Places in a source, counted in characters. The reader moves a cursor forward and never sets one up by hand, so every
cursor is the place behind some number of characters, and what lies between two of them is a stretch of the source.

- `Covers.text`: the text of a tree whose span was taken from two cursors is the stretch between them.
- `LaidOut`: trees that stand behind each other, with gaps; together they are no longer than what they are laid out in.
- `placed_next`: a look at the next token finds comments laid out behind the cursor, and the token behind them.
-/

namespace ScriptTriage.Reader

namespace Cursor

theorem advance_advance (c : Cursor) (m n : Nat) : (c.advance m).advance n = c.advance (m + n) := by
  induction m generalizing c with
  | zero => rw [advance, Nat.zero_add]
  | succ m ih =>
    rw [Nat.add_right_comm, advance, advance]
    cases hrest : c.rest with
    | nil => cases n <;> simp [advance, hrest]
    | cons ch rest => exact ih _

theorem offset_advance (c : Cursor) (n : Nat) :
    (c.advance n).point.offset = c.point.offset + String.utf8Len (c.rest.take n) := by
  induction n generalizing c with
  | zero => simp [advance]
  | succ n ih =>
    rw [advance]
    cases hrest : c.rest with
    | nil => simp
    | cons ch rest =>
      have hstep : (c.point.step ch).offset = c.point.offset + ch.utf8Size := by
        unfold Point.step
        split
        · next h => rw [h]; rfl
        · rfl
      simp only [ih, hstep, List.take_succ_cons, String.utf8Len_cons]
      omega

end Cursor

/-- the place behind the first `n` characters -/
def placeAt (source : String) (n : Nat) : Cursor := (Cursor.ofString source).advance n

/-- the characters from one place up to another -/
def stretch (source : String) (i j : Nat) : List Char := (source.toList.drop i).take (j - i)

variable {source : String} {i j k n : Nat}

theorem advance_placeAt (source : String) (n m : Nat) : (placeAt source n).advance m = placeAt source (n + m) :=
  Cursor.advance_advance _ n m

theorem rest_placeAt (source : String) (n : Nat) : (placeAt source n).rest = source.toList.drop n :=
  Cursor.rest_advance _ n

theorem offset_placeAt (source : String) (n : Nat) :
    (placeAt source n).point.offset = String.utf8Len (source.toList.take n) := by
  rw [placeAt, Cursor.offset_advance]
  exact Nat.zero_add _

theorem take_append_stretch (source : String) (h : i ≤ j) :
    source.toList.take i ++ stretch source i j = source.toList.take j := by
  rw [stretch, ← List.take_add, Nat.add_sub_cancel' h]

theorem length_stretch_le (source : String) (i j : Nat) : (stretch source i j).length ≤ j - i :=
  List.length_take_le _ _

theorem length_stretch (source : String) (h : j ≤ source.toList.length) : (stretch source i j).length = j - i := by
  rw [stretch, List.length_take, List.length_drop]
  omega

theorem stretch_append_stretch (source : String) (hij : i ≤ j) (hjk : j ≤ k) :
    stretch source i j ++ stretch source j k = stretch source i k := by
  have h : source.toList.take i ++ (stretch source i j ++ stretch source j k) =
      source.toList.take i ++ stretch source i k := by
    rw [← List.append_assoc, take_append_stretch source hij, take_append_stretch source hjk,
      take_append_stretch source (hij.trans hjk)]
  exact List.append_cancel_left h

theorem stretch_of_prefix {cs : List Char} (h : cs <+: (placeAt source i).rest) :
    stretch source i (i + cs.length) = cs := by
  rw [rest_placeAt] at h
  rw [stretch, Nat.add_sub_cancel_left]
  exact (List.prefix_iff_eq_take.1 h).symm

/-! ## Trees between two places -/

/-- the tree reaches from one place to another -/
def Covers (source : String) (i j : Nat) (t : Tree) : Prop :=
  i ≤ j ∧ t.span = ⟨(placeAt source i).point, (placeAt source j).point⟩

theorem Covers.text {t : Tree} (h : Covers source i j t) : t.text source = String.ofList (stretch source i j) := by
  obtain ⟨hij, hspan⟩ := h
  have hsource : source = String.ofList (source.toList.take i ++ stretch source i j ++ source.toList.drop j) := by
    rw [take_append_stretch source hij, List.take_append_drop, String.ofList_toList]
  have hstop : String.utf8Len (source.toList.take j) =
      String.utf8Len (source.toList.take i) + String.utf8Len (stretch source i j) := by
    rw [← take_append_stretch source hij, String.utf8Len_append]
  rw [Tree.text, hspan]
  simp only [offset_placeAt, hstop]
  conv_lhs => arg 1; rw [hsource]
  exact String.extract_of_valid _ _ _

/-- the trees, the last one first, stand behind each other between two places; there may be gaps -/
inductive LaidOut (source : String) (start : Nat) : List Tree → Nat → Prop where
  | none {stop} (h : start ≤ stop) : LaidOut source start [] stop
  | behind {t ts i j stop} (h : LaidOut source start ts i) (ht : Covers source i j t) (hstop : j ≤ stop) :
    LaidOut source start (t :: ts) stop

namespace LaidOut

variable {start stop : Nat} {ts : List Tree}

theorem le (h : LaidOut source start ts stop) : start ≤ stop := by
  induction h with
  | none h => exact h
  | behind _ ht hstop ih => exact ih.trans (ht.1.trans hstop)

theorem mono (h : LaidOut source start ts i) (hij : i ≤ j) : LaidOut source start ts j := by
  cases h with
  | none h => exact .none (h.trans hij)
  | behind h ht hstop => exact .behind h ht (hstop.trans hij)

/-- more trees behind those that are laid out -/
theorem append {us : List Tree} (h : LaidOut source start ts i) (hus : LaidOut source i us j) :
    LaidOut source start (us ++ ts) j := by
  induction hus with
  | none hij => exact h.mono hij
  | behind _ ht hstop ih => exact .behind ih ht hstop

/-- what is laid out, or some of it, is no longer than the room for it -/
theorem length_texts_le (h : LaidOut source start ts stop) (p : Tree → Bool) :
    ((ts.filter p).flatMap fun t => (t.text source).toList).length ≤ stop - start := by
  induction h with
  | none => simp
  | @behind t ts i j stop h ht hstop ih =>
    have hlength := length_stretch_le source i j
    have hle := h.le
    have hij := ht.1
    rw [List.filter_cons]
    split_ifs
    · simp only [List.flatMap_cons, List.length_append, ht.text, String.toList_ofList]
      omega
    · omega

end LaidOut

/-! ## The next token -/

/-- a comment as a tree: it has no parts, and it is no string -/
def IsComment (t : Tree) : Prop := ∃ name span, t = .node (.other name) true true none span []

/-- the token stands behind the cursor; an operator or bracket is spelled there -/
structure Token.Follows (c : Cursor) (t : Token) : Prop where
  places : ∃ m n, t.start = c.advance m ∧ t.stop = c.advance (m + n)
  spelled : ∀ text, t.isMark text = true → text.toList <+: t.start.rest ∧ t.stop = t.start.advance text.length

/-- comments are laid out behind a place, the cursor stands behind them, and the token behind the cursor -/
structure Lookahead.Placed (source : String) (start : Nat) (a : Lookahead) : Prop where
  comments : ∀ t ∈ a.comments, IsComment t
  base : ∃ n, LaidOut source start a.comments n ∧ a.base = placeAt source n
  token : a.token.Follows a.base

variable {c : Cursor} {t : Token}

theorem not_isMark_of_sort (h : t.sort ≠ .punctuator) (text : String) : ¬ t.isMark text = true := by
  intro htext
  rw [Token.isMark, Bool.and_eq_true, beq_iff_eq] at htext
  exact h htext.1

theorem follows_ofLength {sort : TokenSort} (hsort : sort ≠ .punctuator) (m n : Nat) :
    (Token.ofLength sort (c.advance m) n).Follows c :=
  ⟨⟨m, n, rfl, Cursor.advance_advance c m n⟩, fun text htext => absurd htext (not_isMark_of_sort hsort text)⟩

theorem prefix_of_punctuator? {cs : List Char} {p : String} (h : punctuator? cs = some p) : p.toList <+: cs := by
  rw [punctuator?, Option.map_eq_some_iff] at h
  obtain ⟨entry, hfind, rfl⟩ := h
  have hentry := List.mem_of_find?_eq_some hfind
  have hstarts : entry.1 <+: cs := List.isPrefixOf_iff_prefix.1 (by simpa using List.find?_some hfind)
  rw [punctuatorTable, List.mem_map] at hentry
  obtain ⟨p, -, rfl⟩ := hentry
  exact hstarts

theorem follows_tokenAt (operand : Bool) (c : Cursor) : (tokenAt operand c).Follows c := by
  fun_cases tokenAt operand c with
  | case1 => exact ⟨⟨0, 0, rfl, rfl⟩, fun text htext => absurd htext (not_isMark_of_sort (by simp) text)⟩
  | case5 cs ch rest hrest =>
    refine ⟨⟨0, 1, rfl, rfl⟩, fun text htext => ?_⟩
    have htext : String.ofList (c.rest.take 1) = text := by simpa [Token.isMark, Token.ofLength] using htext
    have hcs : c.rest = ch :: rest := hrest
    subst htext
    simp [Token.ofLength, hcs]
  | case6 cs ch rest hrest _ _ _ _ _ _ _ p hp =>
    refine ⟨⟨0, p.length, rfl, by rw [Nat.zero_add]⟩, fun text htext => ?_⟩
    have htext : p = text := by simpa [Token.isMark] using htext
    subst htext
    exact ⟨prefix_of_punctuator? hp, rfl⟩
  | _ => exact follows_ofLength (by simp) 0 _

theorem follows_questionAt? {blank : Char → Bool} (h : questionAt? blank c = some t) : t.Follows c := by
  simp only [questionAt?, Option.ite_none_right_eq_some, Option.some.injEq] at h
  obtain ⟨-, rfl⟩ := h
  exact follows_ofLength (by simp) _ 1

theorem follows_specialToken? {e : Expectation} (h : specialToken? e c = some t) : t.Follows c := by
  unfold specialToken? at h
  split at h
  · split at h
    · cases h
      exact ⟨⟨0, 0, rfl, rfl⟩, fun text htext => absurd htext (not_isMark_of_sort (by simp) text)⟩
    · split at h
      · exact follows_questionAt? h
      · cases h
    · cases h
  · split at h
    · exact follows_questionAt? h
    · cases h

/-- a token behind blanks -/
theorem Token.Follows.of_advance {n : Nat} (h : t.Follows (c.advance n)) : t.Follows c := by
  obtain ⟨m, k, hstart, hstop⟩ := h.places
  refine ⟨⟨n + m, k, ?_, ?_⟩, h.spelled⟩
  · rw [hstart, Cursor.advance_advance]
  · rw [hstop, Cursor.advance_advance, Nat.add_assoc]

/-- one more comment is laid out, behind any blanks -/
theorem laidOut_comment {start : Nat} {comments : List Tree} (h : LaidOut source start comments n) (name : String)
    (m k : Nat) : LaidOut source start (commentTree name (placeAt source (n + m)) k :: comments) (n + m + k) := by
  refine .behind (h.mono (Nat.le_add_right n m)) ⟨Nat.le_add_right (n + m) k, ?_⟩ le_rfl
  rw [commentTree, advance_placeAt]
  rfl

theorem placed_lookahead (e : Expectation) (markup : Bool) {start : Nat} {comments : List Tree}
    (hcomments : ∀ t ∈ comments, IsComment t) (hlaid : LaidOut source start comments n) :
    (lookahead e markup (placeAt source n) comments).Placed source start := by
  -- each comment that is found is one more that is laid out, and the search goes on behind it
  generalize hc : placeAt source n = c
  fun_induction lookahead e markup c comments generalizing n with
  | case1 c comments token htoken => exact ⟨hcomments, ⟨n, hlaid, hc.symm⟩, follows_specialToken? htoken⟩
  | case2 =>
    rename_i c comments _ mark _ ih
    obtain ⟨k, hmark⟩ : ∃ k, mark.1 = placeAt source (n + k) := ⟨_, by rw [← advance_placeAt, hc]; rfl⟩
    rw [hmark] at ih ⊢
    exact ih (List.forall_mem_cons.2 ⟨⟨_, _, rfl⟩, hcomments⟩) (laidOut_comment hlaid _ _ _)
      (advance_placeAt source _ _).symm
  | case3 =>
    rename_i c comments _ _ _ blanks m _ ih
    obtain ⟨k, hblanks⟩ : ∃ k, blanks = placeAt source (n + k) := ⟨_, by rw [← advance_placeAt, hc]; rfl⟩
    rw [hblanks] at ih ⊢
    exact ih (List.forall_mem_cons.2 ⟨⟨_, _, rfl⟩, hcomments⟩) (laidOut_comment hlaid _ _ _)
      (advance_placeAt source _ _).symm
  | case4 c comments =>
    exact ⟨hcomments, ⟨n, hlaid, hc.symm⟩, .of_advance (follows_tokenAt _ _)⟩

theorem placed_next (source : String) (n : Nat) (e : Expectation) (markup : Bool) :
    ((placeAt source n).next e markup).Placed source n :=
  placed_lookahead e markup (by simp) (.none le_rfl)

end ScriptTriage.Reader

import ScriptTriage.Proofs.Origin
import ScriptTriage.Proofs.Reader.Strings
import ScriptTriage.Proofs.Text.Length

/-
Short literals. Decoding never lengthens a literal: what an escape sequence stands for is never longer than the
sequence, and the parts of a string are laid out between its quotes. So a string with fewer characters between its
quotes than a candidate must have is never one, whatever is escaped in it.

- `Quoted.length_value_le`: the value of a string is no longer than what is written between its quotes.
- `decoding_never_lengthens`: for segments of any kind, for the strings of any tree that are written between quotes, and
  for the candidates of a walk. The reader gives such a tree for every source (`legible_ofString`).
-/

namespace ScriptTriage

open Lowering Reader

variable {source : String} {root t : Tree}

theorem Reader.Legible.contained (h : Legible source root) (ht : root.Contains t) : Legible source t := by
  obtain ⟨depth, hdepth⟩ := ht
  induction hdepth with
  | root => exact h
  | child _ hc ih => exact ih.children _ hc

namespace Lowering

theorem writtenAll_segments (source : String) (t : Tree) :
    Text.writtenAll (segments source t) = (t.children.filter (·.named)).flatMap fun c => (c.text source).toList := by
  rw [Text.writtenAll, segments, List.flatMap_map]
  congr 1
  funext c
  split_ifs <;> rfl

end Lowering

/-- a string is written as a quote, a content and the same quote, and its value is no longer than the content -/
theorem Reader.Quoted.length_value_le (h : Quoted source t) :
    ∃ quote content, t.text source = String.ofList (quote :: (content ++ [quote])) ∧
      (Text.decodeSegments (segments source t)).length ≤ content.length := by
  obtain ⟨quote, i, j, first, parts, last, hcovers, hchildren, hfirst, hlast, hopening, hclosing, hlaid⟩ := h
  have hij := hlaid.le
  have hj : j ≤ source.toList.length := by
    by_contra hlong
    rw [stretch, List.drop_eq_nil_of_le (by omega)] at hclosing
    simp at hclosing
  refine ⟨quote, stretch source (i + 1) j, ?_, ?_⟩
  · rw [hcovers.text, ← stretch_append_stretch source (Nat.le_succ i) (by omega : i + 1 ≤ j + 1),
      ← stretch_append_stretch source hij (Nat.le_succ j), hopening, hclosing]
    rfl
  · have hnamed : t.children.filter (·.named) = (parts.filter (·.named)).reverse := by
      rw [hchildren, List.filter_cons_of_neg (by simp [hfirst]), List.filter_append, List.filter_reverse]
      simp [hlast]
    calc (Text.decodeSegments (segments source t)).length
        ≤ (Text.writtenAll (segments source t)).length := Text.length_decodeSegments_le _
      _ = ((parts.filter (·.named)).flatMap fun c => (c.text source).toList).length := by
          rw [writtenAll_segments, hnamed]
          exact ((List.reverse_perm _).flatMap_right _).length_eq
      _ ≤ j - (i + 1) := hlaid.length_texts_le _
      _ = (stretch source (i + 1) j).length := (length_stretch source hj).symm

/-- **Decoding never lengthens.** What segments of any kind stand for has no more characters than the segments. So in
a tree whose strings are written between quotes, a string that is too short between its quotes adds nothing to a walk,
and each candidate of a walk comes from a string that is long enough there. -/
theorem decoding_never_lengthens {σ : Type} (segments : List Text.Segment) (tree : SyntaxTree) (source : String)
    (maxDepth : Nat) (cfg : WalkConfig σ) (state : σ) :
    let root := tree.root
    let body := (tree.lower source maxDepth).body
    let value (t : Tree) := Text.decodeSegments (Lowering.segments source t)
    (Text.decodeSegments segments).length ≤ (Text.writtenAll segments).length ∧
    (Legible source root →
      (∀ t, root.Contains t → t.kind = .string → ∃ quote content,
        t.text source = String.ofList (quote :: (content ++ [quote])) ∧ (value t).length ≤ content.length ∧
        (content.length < cfg.leastLength → Candidate.extract? (value t) cfg.leastLength = none ∧
          ∀ s, Walk.onLiteralNode cfg (literal source t) s = s)) ∧
      (∀ c ∈ (Walk.program cfg body state).1.candidates, ∃ t quote content, root.Contains t ∧ t.kind = .string ∧
        t.text source = String.ofList (quote :: (content ++ [quote])) ∧ cfg.leastLength ≤ content.length ∧
        c = .ofString (value t))) := by
  intro root body value
  refine ⟨Text.length_decodeSegments_le segments, fun h => ?_⟩
  have hstrings : ∀ t, root.Contains t → t.kind = .string → ∃ quote content,
      t.text source = String.ofList (quote :: (content ++ [quote])) ∧ (value t).length ≤ content.length :=
    fun t ht hkind => ((h.contained ht).quoted hkind).length_value_le
  refine ⟨fun t ht hkind => ?_, fun c hc => ?_⟩
  · obtain ⟨quote, content, htext, hvalue⟩ := hstrings t ht hkind
    refine ⟨quote, content, htext, hvalue, fun hshort => ?_⟩
    have hnone : Candidate.extract? (value t) cfg.leastLength = none := by
      rw [Candidate.extract?_eq, if_neg (by omega)]
    refine ⟨hnone, fun s => ?_⟩
    have hlit : literalValue source t = .string (value t) := (literalValue_eq_string_iff source t _).2 ⟨hkind, rfl⟩
    simp only [Walk.onLiteralNode, literal, Walk.onLiteral, hlit, hnone]
  · have hnoticed := (Walk.mem_candidates_iff cfg body state c).1 hc
    obtain ⟨t, ht, hkind, hlong, rfl⟩ := sourced_of_noticed (fun n hn => traced_of_holds hn) hnoticed
    obtain ⟨quote, content, htext, hvalue⟩ := hstrings t ht hkind
    exact ⟨t, quote, content, ht, hkind, htext, hlong.trans hvalue, rfl⟩

/-- a string of two characters, written with five between its quotes -/
def escapedSource : String := "run('\\x41B')"

def escapedString : Tree :=
  .node .string true false none (onFirstLine 4 11)
    [markAt "'" 4, .node .escapeSequence true false none (onFirstLine 5 9) [],
     .node (.other "string_fragment") true false none (onFirstLine 9 10) [], markAt "'" 10]

/-- the tree of `escapedSource` -/
def escapedScript : SyntaxTree :=
  { root := .node (.other "program") true false none (onFirstLine 0 12)
      [.node .expressionStatement true false none (onFirstLine 0 12)
        [.node .callExpression true false none (onFirstLine 0 12)
          [.node .identifier true false (some .function) (onFirstLine 0 3) [],
           .node .arguments true false (some .arguments) (onFirstLine 3 12)
            [markAt "(" 3, escapedString, markAt ")" 11]]]]
    hasErrors := false }

theorem quoted_escapedString : Quoted escapedSource escapedString := by
  have hstring : Covers escapedSource 4 11 escapedString := ⟨by decide, by decide⟩
  have hescape : Covers escapedSource 5 9 (.node .escapeSequence true false none (onFirstLine 5 9) []) :=
    ⟨by decide, by decide⟩
  have hfragment : Covers escapedSource 9 10
      (.node (.other "string_fragment") true false none (onFirstLine 9 10) []) := ⟨by decide, by decide⟩
  exact ⟨'\x27', 4, 10, _, _, _, hstring, rfl, rfl, rfl, by decide, by decide,
    .behind (.behind (.none (Nat.le_refl 5)) hescape (Nat.le_refl 9)) hfragment (Nat.le_refl 10)⟩

theorem legible_escapedScript : Legible escapedSource escapedScript.root := by
  have hstring : Legible escapedSource escapedString := by
    refine .node (fun _ => quoted_escapedString) ?_
    simp only [List.forall_mem_cons]
    exact ⟨legible_leaf rfl, legible_leaf rfl, legible_leaf rfl, legible_leaf rfl, List.forall_mem_nil _⟩
  have harguments : ∀ c ∈ [markAt "(" 3, escapedString, markAt ")" 11], Legible escapedSource c := by
    simp only [List.forall_mem_cons]
    exact ⟨legible_leaf rfl, hstring, legible_leaf rfl, List.forall_mem_nil _⟩
  refine legible_of_ne rfl (List.forall_mem_singleton.2 (legible_of_ne rfl (List.forall_mem_singleton.2 ?_)))
  exact legible_of_ne rfl
    (List.forall_mem_cons.2 ⟨legible_leaf rfl, List.forall_mem_singleton.2 (legible_of_ne rfl harguments)⟩)

theorem contains_escapedString : escapedScript.root.Contains escapedString :=
  ⟨4, .child (.child (.child (.child .root (List.mem_singleton_self _)) (List.mem_singleton_self _))
    (List.mem_cons_of_mem _ (List.mem_singleton_self _))) (List.mem_cons_of_mem _ List.mem_cons_self)⟩

/-- the string is a candidate if two characters are enough; if six are needed, it is passed over in its tree, and
whatever the reader makes of the source, no candidate of it is written with less -/
theorem decoding_never_lengthens_escapedSource :
    let found (tree : SyntaxTree) (least : Nat) :=
      (Walk.program ⟨least, .none⟩ (tree.lower escapedSource 8).body ()).1.candidates
    Legible escapedSource escapedScript.root ∧ found escapedScript 2 = [.bytes [0x41, 0x42]] ∧
    (∀ s, Walk.onLiteralNode ⟨6, .none⟩ (literal escapedSource escapedString) s = s) ∧
    Legible escapedSource (SyntaxTree.ofString escapedSource).root ∧
    ∀ c ∈ found (.ofString escapedSource) 6, ∃ t, (SyntaxTree.ofString escapedSource).root.Contains t ∧
      8 ≤ (t.text escapedSource).length := by
  obtain ⟨-, hscript⟩ := decoding_never_lengthens [] escapedScript escapedSource 8 ⟨6, .none⟩ ()
  obtain ⟨-, hread⟩ := decoding_never_lengthens [] (.ofString escapedSource) escapedSource 8 ⟨6, .none⟩ ()
  refine ⟨legible_escapedScript, by decide, ?_, legible_ofString escapedSource, fun c hc => ?_⟩
  · obtain ⟨quote, content, htext, -, hshort⟩ := (hscript legible_escapedScript).1 _ contains_escapedString rfl
    have hlength : (escapedString.text escapedSource).length = 7 := by decide
    rw [htext] at hlength
    have hcontent : content.length < 6 := by
      simp only [String.length_ofList, List.length_cons, List.length_append, List.length_nil] at hlength
      omega
    exact (hshort hcontent).2
  · obtain ⟨t, quote, content, ht, -, htext, hlong, -⟩ := (hread (legible_ofString escapedSource)).2 c hc
    have hcontent : 6 ≤ content.length := hlong
    refine ⟨t, ht, ?_⟩
    rw [htext, String.length_ofList, List.length_cons, List.length_append, List.length_singleton]
    omega

end ScriptTriage

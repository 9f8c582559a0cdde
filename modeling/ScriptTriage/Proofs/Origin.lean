import ScriptTriage.Proofs.Candidate
import ScriptTriage.Proofs.Lowering.Origin

/-
Findings and the source. A walk passes over whatever has no location or no text, so it might miss something without a
word; in a lowered program nothing is without them. So every finding can be shown in the source, and every place that
the walk looks at for a stop has one.

- `sourced_of_noticed`: what a walk over a lowered program notices comes from a node of the tree.
- `stopped_of_noticed`: where the walk notices a stop, there is one at the end of a node of the tree.
- `findings_from_source`: both, with what lowering says about locations, literals and loops.
- `pattern_without_stop`: a declarator that takes a pattern apart binds no single name, and there is no stop for it.
-/

namespace ScriptTriage

open Lowering

/-- may there be a stop of this kind at the end of a node of such a kind? -/
def BreakpointKind.marks : BreakpointKind → Kind → Bool
  | .assignment, kind => kind = .variableDeclarator || kind = .expressionStatement
  | .loop, kind => kind.isLoop

namespace Lowering

/-- the text of a node of the tree of such a kind -/
def SpelledAs (root : Tree) (source : String) (p : Kind → Bool) (text : String) : Prop :=
  ∃ t, root.Contains t ∧ p t.kind = true ∧ text = t.text source

/-- the scope is global, or its label is the text of a node of the tree -/
def Labelled (root : Tree) (source : String) (scope : Scope) : Prop :=
  scope = .global ∨ ∃ t, root.Contains t ∧ scope.label = t.text source

/-- the event comes from nodes of the tree -/
def Sourced (root : Tree) (source : String) (least : Nat) : Event → Prop
  | .binding b => SpelledAs root source Kind.isName b.name ∧ Labelled root source b.scope
  | .valueAssignment v =>
    SpelledAs root source Kind.isName v.name ∧ SpelledAs root source Kind.isLiteral v.raw ∧ Labelled root source v.scope
  | .breakpoint b =>
    (∃ t, root.Contains t ∧ b.kind.marks t.kind = true ∧ b.line = t.span.stop.row + 1) ∧ Labelled root source b.scope
  | .candidate c =>
    ∃ t, root.Contains t ∧ t.kind = .string ∧ least ≤ (Text.decodeSegments (segments source t)).length ∧
      c = .ofString (Text.decodeSegments (segments source t))

section Events

variable {root : Tree} {source : String} {least : Nat} {scope : Scope}

theorem sourced_stop {kind : BreakpointKind} {p : Kind → Bool} {loc : Option Location} (hloc : LocatedAs root p loc)
    (hp : ∀ k, p k = true → kind.marks k = true) (hscope : Labelled root source scope) :
    ∀ e ∈ Trace.stop kind loc scope, Sourced root source least e := by
  obtain ⟨t, ht, hkind, rfl⟩ := hloc
  intro e he
  obtain rfl := List.mem_singleton.1 he
  exact ⟨⟨t, ht, hp _ hkind, rfl⟩, hscope⟩

/-- the value of a literal is text only if the node is a string -/
theorem literalValue_eq_string_iff (source : String) (t : Tree) (text : String) :
    literalValue source t = .string text ↔ t.kind = .string ∧ text = Text.decodeSegments (segments source t) := by
  unfold literalValue
  cases t.kind <;> simp [eq_comm]

theorem sourced_ofLiteralNode {n : Node} (hn : Traced root source n) :
    ∀ e ∈ Trace.ofLiteralNode least n, Sourced root source least e := by
  intro e he
  cases n with
  | literal l =>
    obtain ⟨t, ht, -, hl⟩ := hn
    cases hl
    rw [Trace.ofLiteralNode] at he
    unfold Trace.ofLiteral at he
    split at he
    · rename_i text htext
      obtain ⟨hkind, rfl⟩ := (literalValue_eq_string_iff source t text).1 htext
      rw [Candidate.extract?_eq] at he
      split at he
      · rename_i hlength
        obtain rfl := List.mem_singleton.1 he
        exact ⟨t, ht, hkind, hlength, rfl⟩
      · cases he
    · cases he
  | _ => cases he

theorem sourced_ofInitialiser {name : String} {init : Node} (hname : SpelledAs root source Kind.isName name)
    (hinit : Traced root source init) (hscope : Labelled root source scope) :
    ∀ e ∈ Trace.ofInitialiser least scope name init, Sourced root source least e := by
  intro e he
  cases init with
  | literal l =>
    rcases List.mem_append.1 he with he | he
    · obtain ⟨t, ht, hkind, hl⟩ := hinit
      cases hl
      obtain rfl := List.mem_singleton.1 he
      exact ⟨hname, ⟨t, ht, hkind, rfl⟩, hscope⟩
    · exact sourced_ofLiteralNode hinit e he
  | _ => cases he

theorem spelledAs_of_traced {i : Identifier} (h : Traced root source (.identifier i)) :
    SpelledAs root source Kind.isName i.name := by
  obtain ⟨t, ht, hkind, rfl⟩ := h
  exact ⟨t, ht, hkind, rfl⟩

theorem sourced_ofTarget {target : Node} (htarget : Traced root source target) (hscope : Labelled root source scope) :
    ∀ e ∈ Trace.ofTarget scope target, Sourced root source least e := by
  intro e he
  cases target with
  | identifier i =>
    obtain rfl := List.mem_singleton.1 he
    exact ⟨spelledAs_of_traced htarget, hscope⟩
  | _ => cases he

theorem sourced_ofDeclarator {d : Declarator} (hloc : LocatedAs root (· = .variableDeclarator) d.loc)
    (hparts : ∀ n, n ∈ d.id ∨ n ∈ d.init → Traced root source n) (hscope : Labelled root source scope) :
    ∀ e ∈ Trace.ofDeclarator least scope d, Sourced root source least e := by
  intro e he
  fun_cases Trace.ofDeclarator least scope d with
  | case1 init i hinit hid =>
    have hname := spelledAs_of_traced (hparts _ (.inl hid))
    have hstop : ∀ k : Kind, decide (k = .variableDeclarator) = true → BreakpointKind.assignment.marks k = true := by
      intro k hk
      simp [BreakpointKind.marks, of_decide_eq_true hk]
    simp only [Trace.ofDeclarator, hid, hinit, List.mem_cons, List.mem_append] at he
    rcases he with rfl | he | he
    · exact ⟨hname, hscope⟩
    · exact sourced_stop hloc hstop hscope e he
    · exact sourced_ofInitialiser hname (hparts _ (.inr hinit)) hscope e he
  | case2 i hinit hid =>
    simp only [Trace.ofDeclarator, hid, hinit, List.mem_singleton] at he
    subst he
    exact ⟨spelledAs_of_traced (hparts _ (.inl hid)), hscope⟩
  | case3 => simp_all [Trace.ofDeclarator]

/-! ## What a walk notices -/

variable {body : List Node}

theorem labelled_of_reaches {n : Node} (hbody : ∀ n, Holds body n → Traced root source n)
    (h : Walk.Reaches body scope n) : Labelled root source scope := by
  rcases h.scope_cases with rfl | ⟨id, params, block, loc, hfunction, rfl⟩
  · exact .inl rfl
  · obtain ⟨t, ht, rfl⟩ := (hbody _ hfunction).2.1 id rfl
    exact .inr ⟨t, ht, rfl⟩

/-- if all nodes of a program say what nodes of the tree say, then what is noticed at any of them comes from the tree -/
theorem sourced_of_noticed (hbody : ∀ n, Holds body n → Traced root source n) {e : Event}
    (h : Trace.Noticed least body e) : Sourced root source least e := by
  obtain ⟨scope, n, hreach, he⟩ := h
  have hscope := labelled_of_reaches hbody hreach
  have hn := hbody n hreach.holds
  have hheld : ∀ m ∈ n.held, Traced root source m := fun m hm => hbody m (hreach.holds.held hm)
  fun_cases Trace.noticed least scope n with
  | case1 kind declarators loc =>
    obtain ⟨d, hd, he⟩ := List.mem_flatMap.1 he
    refine sourced_ofDeclarator (hn.2 d hd) (fun m hm => hheld m ?_) hscope e he
    rw [Node.held, List.mem_flatMap]
    exact ⟨d, hd, by simpa using hm⟩
  | case2 operator left right assignmentLoc loc hoperator =>
    rw [Trace.noticed, if_pos hoperator, List.mem_append] at he
    rcases he with he | he
    · have hleft := hbody left (Walk.Reaches.onSide hreach hoperator (.inl rfl)).holds
      exact sourced_ofTarget hleft hscope e he
    · have hloc : LocatedAs root (· = .expressionStatement) loc := hn
      refine sourced_stop hloc (fun k hk => ?_) hscope e he
      simp [BreakpointKind.marks, of_decide_eq_true hk]
  | case4 callee arguments callLoc loc =>
    obtain ⟨m, hm, he⟩ := List.mem_flatMap.1 he
    have hcall := hreach.holds.held (List.mem_singleton_self _)
    exact sourced_ofLiteralNode (hbody m (hcall.held (List.mem_append_right _ hm))) e he
  | case6 kind inner loc hkind =>
    have hstop : ∀ k : Kind, k.isLoop = true → BreakpointKind.loop.marks k = true := fun _ hk => hk
    rw [Trace.noticed, if_neg hkind] at he
    exact sourced_stop hn.1 hstop hscope e he
  | case7 argument loc => exact sourced_ofLiteralNode (hheld argument (List.mem_singleton_self _)) e he
  | case8 l => exact sourced_ofLiteralNode hn e he
  | case3 | case5 | case9 => simp_all [Trace.noticed]

/-! ## Stops -/

/-- the location is that of a node of the tree of such a kind, and there is a stop at the end of this node -/
def Stopped (root : Tree) (found : Findings) (kind : BreakpointKind) (scope : Scope) (p : Kind → Bool)
    (loc : Option Location) : Prop :=
  ∃ t, root.Contains t ∧ p t.kind = true ∧ loc = some t.location ∧
    ⟨kind, t.span.stop.row + 1, scope⟩ ∈ found.breakpoints

/-- a located stop that the walk notices is among its findings -/
theorem stopped_of_noticed {σ : Type} {cfg : WalkConfig σ} {state : σ} {n : Node} {kind : BreakpointKind}
    {p : Kind → Bool} {loc : Option Location} (hloc : LocatedAs root p loc) (hreach : Walk.Reaches body scope n)
    (hsubset : Trace.stop kind loc scope ⊆ Trace.noticed cfg.leastLength scope n) :
    Stopped root (Walk.program cfg body state).1 kind scope p loc := by
  obtain ⟨t, ht, hkind, rfl⟩ := hloc
  refine ⟨t, ht, hkind, rfl, ?_⟩
  rw [Walk.mem_breakpoints_iff]
  exact ⟨scope, n, hreach, hsubset (List.mem_singleton_self _)⟩

end Events

end Lowering

namespace SyntaxTree

/-- **Findings come from the source, and no stop is missing.** All locations in a lowered program are those of nodes of
the tree, with lines counted from one, a literal has the text of its node, and the body of a loop is opaque. Names,
labels of scopes and literals among the findings are texts of nodes, and stops stand at the last line of a declarator,
an expression statement or a loop. Each declarator of a plain name with an initialiser, each complete assignment and
each loop that does not run over values, if the walk reaches it, has its stop. -/
theorem findings_from_source {σ : Type} (tree : SyntaxTree) (source : String) (maxDepth : Nat) (cfg : WalkConfig σ)
    (state : σ) :
    let root := tree.root
    let body := (tree.lower source maxDepth).body
    let found := (Walk.program cfg body state).1
    (∀ n, Holds body n → ∀ loc ∈ n.locations, ∃ t, root.Contains t ∧
      loc = some ⟨t.span.start.row + 1, t.span.start.column, t.span.stop.row + 1, t.span.stop.column⟩) ∧
    (∀ l, Holds body (.literal l) → ∃ t, root.Contains t ∧ t.kind.isLiteral = true ∧ l.loc = some t.location ∧
      l.raw = some (t.text source)) ∧
    (∀ kind inner loc, Holds body (.loop kind inner loc) →
      inner = none ∨ ∃ name bodyLoc, inner = some (.other name bodyLoc)) ∧
    (∀ b ∈ found.bindings, SpelledAs root source Kind.isName b.name ∧ Labelled root source b.scope) ∧
    (∀ v ∈ found.valueAssignments, SpelledAs root source Kind.isName v.name ∧
      SpelledAs root source Kind.isLiteral v.raw ∧ Labelled root source v.scope) ∧
    (∀ b ∈ found.breakpoints, (∃ t, root.Contains t ∧ b.kind.marks t.kind = true ∧ b.line = t.span.stop.row + 1) ∧
      Labelled root source b.scope) ∧
    (∀ scope kind declarators loc, Walk.Reaches body scope (.variableDeclaration kind declarators loc) →
      ∀ d ∈ declarators, ∀ i init, d.id = some (.identifier i) → d.init = some init →
        Stopped root found .assignment scope (· = .variableDeclarator) d.loc) ∧
    (∀ scope operator left right assignmentLoc loc, Walk.Reaches body scope
        (.expressionStatement (some (.assignment operator (some left) (some right) assignmentLoc)) loc) →
      Trace.Mutates operator → Stopped root found .assignment scope (· = .expressionStatement) loc) ∧
    (∀ scope kind inner loc, Walk.Reaches body scope (.loop kind inner loc) → kind ≠ .forOf →
      Stopped root found .loop scope Kind.isLoop loc) := by
  intro root body found
  have hbody : ∀ n, Holds body n → Traced root source n := fun n hn => traced_of_holds hn
  have hnoticed : ∀ e, Trace.Noticed cfg.leastLength body e → Sourced root source cfg.leastLength e :=
    fun e he => sourced_of_noticed hbody he
  refine ⟨fun n hn => (hbody n hn).located, fun l hl => ?_, fun kind inner loc hloop => (hbody _ hloop).2,
    fun b hb => hnoticed _ ((Walk.mem_bindings_iff cfg body state b).1 hb),
    fun v hv => hnoticed _ ((Walk.mem_valueAssignments_iff cfg body state v).1 hv),
    fun b hb => hnoticed _ ((Walk.mem_breakpoints_iff cfg body state b).1 hb), ?_, ?_, ?_⟩
  · obtain ⟨t, ht, hkind, hlit⟩ := hbody _ hl
    cases hlit
    exact ⟨t, ht, hkind, rfl, rfl⟩
  · intro scope kind declarators loc hreach d hd i init hid hinit
    refine stopped_of_noticed ((hbody _ hreach.holds).2 d hd) hreach fun e he => ?_
    refine List.mem_flatMap.2 ⟨d, hd, ?_⟩
    rw [Trace.ofDeclarator, hid, hinit]
    exact List.mem_cons_of_mem _ (List.mem_append_left _ he)
  · intro scope operator left right assignmentLoc loc hreach hoperator
    have hloc : LocatedAs root (· = .expressionStatement) loc := hbody _ hreach.holds
    refine stopped_of_noticed hloc hreach fun e he => ?_
    rw [Trace.noticed, if_pos hoperator]
    exact List.mem_append_right _ he
  · intro scope kind inner loc hreach hkind
    refine stopped_of_noticed (hbody _ hreach.holds).1 hreach fun e he => ?_
    rwa [Trace.noticed, if_neg hkind]

end SyntaxTree

def countdownSource : String := "var x = 5;\nwhile (x) x--;"

/-- the tree of `countdownSource`, its marks left out -/
def countdownScript : SyntaxTree :=
  let onSecondLine (start stop : Nat) : Span := ⟨⟨1, start, 11 + start⟩, ⟨1, stop, 11 + stop⟩⟩
  { root := .node (.other "program") true false none ⟨⟨0, 0, 0⟩, ⟨1, 14, 25⟩⟩
      [.node .variableDeclaration true false none (onFirstLine 0 10)
        [.node .variableDeclarator true false none (onFirstLine 4 9)
          [.node .identifier true false (some .name) (onFirstLine 4 5) [],
           .node .number true false (some .value) (onFirstLine 8 9) []]],
       .node .whileStatement true false none (onSecondLine 0 14)
        [.node .parenthesizedExpression true false (some .condition) (onSecondLine 6 9)
          [.node .identifier true false none (onSecondLine 7 8) []],
         .node .expressionStatement true false (some .body) (onSecondLine 10 14)
          [.node (.other "update_expression") true false none (onSecondLine 10 13)
            [.node .identifier true false none (onSecondLine 10 11) []]]]]
    hasErrors := false }

/-- the name and its value are spelled in the source, and the loop has its stop, at the end of its opaque body -/
theorem findings_from_source_countdownScript :
    let root := countdownScript.root
    let body := (countdownScript.lower countdownSource 64).body
    let found := (Walk.program ⟨64, .none⟩ body ()).1
    found.valueAssignments = [⟨"x", .global, "5"⟩] ∧
    found.breakpoints = [⟨.assignment, 1, .global⟩, ⟨.loop, 2, .global⟩] ∧
    SpelledAs root countdownSource Kind.isName "x" ∧ SpelledAs root countdownSource Kind.isLiteral "5" ∧
    Stopped root found .loop .global Kind.isLoop (some ⟨2, 0, 2, 14⟩) := by
  have hvalues : (Walk.program ⟨64, .none⟩ (countdownScript.lower countdownSource 64).body ()).1.valueAssignments =
      [⟨"x", .global, "5"⟩] := by decide
  have hstops : (Walk.program ⟨64, .none⟩ (countdownScript.lower countdownSource 64).body ()).1.breakpoints =
      [⟨.assignment, 1, .global⟩, ⟨.loop, 2, .global⟩] := by decide
  have hreach : Walk.Reaches (countdownScript.lower countdownSource 64).body .global
      (.loop .whileLoop (some (.other "expression_statement" (some ⟨2, 10, 2, 14⟩))) (some ⟨2, 0, 2, 14⟩)) :=
    .statement (List.mem_cons_of_mem _ (List.mem_singleton_self _))
  obtain ⟨-, -, -, -, hspelled, -, -, -, hloops⟩ :=
    SyntaxTree.findings_from_source countdownScript countdownSource 64 ⟨64, .none⟩ ()
  obtain ⟨hname, hraw, -⟩ := hspelled ⟨"x", .global, "5"⟩ (hvalues ▸ List.mem_singleton_self _)
  exact ⟨hvalues, hstops, hname, hraw, hloops _ _ _ _ hreach (by decide)⟩

/-- the tree of `var [a] = b;` -/
def patternScript : SyntaxTree :=
  { root := .node (.other "program") true false none (onFirstLine 0 12)
      [.node .variableDeclaration true false none (onFirstLine 0 12)
        [.node (.other "var") false false none (onFirstLine 0 3) [],
         .node .variableDeclarator true false none (onFirstLine 4 11)
          [.node (.other "array_pattern") true false (some .name) (onFirstLine 4 7)
            [markAt "[" 4, .node .identifier true false none (onFirstLine 5 6) [], markAt "]" 6],
           markAt "=" 8, .node .identifier true false (some .value) (onFirstLine 10 11) []], markAt ";" 11]]
    hasErrors := false }

/-- a declarator that takes a pattern apart: the walk reaches it and it has an initialiser, and there is no stop -/
theorem pattern_without_stop :
    let body := (patternScript.lower "var [a] = b;" 64).body
    let d := Declarator.mk (some (.other "array_pattern" (some ⟨1, 4, 1, 7⟩)))
      (some (.identifier ⟨"b", some ⟨1, 10, 1, 11⟩⟩)) (some ⟨1, 4, 1, 11⟩)
    Walk.Reaches body .global (.variableDeclaration .varDeclaration [d] (some ⟨1, 0, 1, 12⟩)) ∧
    (Walk.program ⟨64, .none⟩ body ()).1.breakpoints = [] :=
  ⟨.statement (List.mem_singleton_self _), rfl⟩

end ScriptTriage

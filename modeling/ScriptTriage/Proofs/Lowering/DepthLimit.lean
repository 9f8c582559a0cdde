import ScriptTriage.Proofs.Lowering.Position

/-
What the depth limit does to a program.

- `placeholder_past_limit`: a node is cut where it is nested deeper in the tree than the limit says, but for parameters,
  which may be nested one level deeper for each list of parameters above them, and for alternatives without an `else`
  clause, which count one level more than they are nested.
- `truncated_iff_exists_placeholder`: a program is marked as truncated exactly if there is a placeholder in it, and
  every placeholder has the location of the node that it replaces.
- `nesting_le_limit`: no node of a program is nested deeper than the limit and one more, so a walk over the program
  never has more visits under way.
-/

namespace ScriptTriage

open Lowering

/-! ## Which nodes are cut -/

namespace SyntaxTree

/-- **Where the limit cuts.** Take any node that lowering passes, and the route to it. It is nested as deep as the route
is. If that depth, with one more for each bare alternative and one less for each list of parameters on the route, is
within the limit, then the node is in the program, and no placeholder stands for it; parentheses are seen through. If it
is past the limit, then nothing but a placeholder stands for the node. -/
theorem placeholder_past_limit (tree : SyntaxTree) (source : String) (maxDepth : Nat) {route : Route} {t : Tree}
    (h : Passed tree.root route t) :
    tree.root.AtDepth route.depth t ∧
    (route.depth + route.bareAlternatives ≤ maxDepth + route.parameterLists →
      ∃ path n, Stands tree.root (tree.lower source maxDepth).body path route t n) ∧
    ∀ path n, Stands tree.root (tree.lower source maxDepth).body path route t n →
      (maxDepth + route.parameterLists < route.depth + route.bareAlternatives → n.IsPlaceholder) ∧
      (route.depth + route.bareAlternatives ≤ maxDepth + route.parameterLists → content? t = none →
        (n.IsPlaceholder ↔ t.kind.name = depthLimitKind)) := by
  have hbalance := route.charge_add_parameterLists
  have htail := route.charge_tail_le
  refine ⟨h.atDepth, fun hwithin => exists_stands h source (by omega), fun path n hn => ⟨fun hpast => ?_, ?_⟩⟩
  · exact (stands_lower hn).2 (by omega)
  · intro hwithin hcontent
    rw [(stands_lower hn).1 (by omega)]
    exact isPlaceholder_node_iff (by omega) hcontent source

end SyntaxTree

/-- the parameter of `function f(a) {}` -/
def parameterA : Tree := .node .identifier true false none (onFirstLine 11 12) []

/-- the list of parameters of `function f(a) {}` -/
def parametersOfF : Tree :=
  .node (.other "formal_parameters") true false (some .parameters) (onFirstLine 10 13)
    [markAt "(" 10, parameterA, markAt ")" 12]

/-- the declaration `function f(a) {}` -/
def declarationOfF : Tree :=
  .node .functionDeclaration true false none (onFirstLine 0 16)
    [.node .identifier true false (some .name) (onFirstLine 9 10) [], parametersOfF,
      .node .statementBlock true false (some .body) (onFirstLine 14 16) [markAt "\x7b" 14, markAt "\x7d" 15]]

/-- the tree of `function f(a) {}` -/
def parameterScript : SyntaxTree :=
  { root := .node (.other "program") true false none (onFirstLine 0 16) [declarationOfF], hasErrors := false }

def routeToA : Route := [.toParameter parametersOfF parameterA, .toChild declarationOfF]

theorem passed_parameterA : Passed parameterScript.root routeToA parameterA :=
  .step (s := .toParameter parametersOfF parameterA) (.statement (List.mem_singleton_self _))
    (List.mem_singleton_self _)

/-- under limit two, the parameter is nested three deep and is not cut -/
theorem placeholder_past_limit_parameterScript :
    Passed parameterScript.root routeToA parameterA ∧ parameterScript.root.AtDepth 3 parameterA ∧
    ∃ path n, Stands parameterScript.root (parameterScript.lower "function f(a) {}" 2).body path routeToA parameterA n ∧
      ¬ n.IsPlaceholder := by
  obtain ⟨hdepth, hexists, hstands⟩ :=
    SyntaxTree.placeholder_past_limit parameterScript "function f(a) {}" 2 passed_parameterA
  obtain ⟨path, n, hn⟩ := hexists (by decide)
  refine ⟨passed_parameterA, hdepth, path, n, hn, fun hplaceholder => ?_⟩
  have hname := ((hstands path n hn).2 (by decide) rfl).1 hplaceholder
  exact absurd hname (by decide)

/-! ## Placeholders and the mark -/

namespace Lowering

/-- the last step of the route crosses the limit -/
def Route.Crosses (maxDepth : Nat) (route : Route) : Prop := charge route.tail ≤ maxDepth ∧ maxDepth < route.charge

variable {tree : SyntaxTree} {maxDepth : Nat}

/-- what was charged for a route and what the tree at its end demands are within the critical depth -/
theorem charge_add_demand_le {route : Route} {t : Tree} (h : Passed tree.root route t) :
    route.charge + demand t ≤ tree.criticalDepth + 1 := by
  induction h with
  | @statement t h =>
    have hdemand := tree.demand_le_criticalDepth h
    have hcharge : Route.charge [Step.toChild t] = 1 := rfl
    omega
  | @step route t s _ hs ih =>
    have hstep := demand_add_charge_le hs
    rw [Route.charge_cons]
    omega

/-- a tree that demands more levels than are left has a node where the limit is crossed -/
theorem exists_crosses {route : Route} {t : Tree} (h : Passed tree.root route t)
    (htail : Route.charge route.tail ≤ maxDepth) (hdemand : maxDepth + 1 < route.charge + demand t) :
    ∃ route t, Passed tree.root route t ∧ route.Crosses maxDepth := by
  by_cases hcharge : maxDepth < route.charge
  · exact ⟨route, t, h, htail, hcharge⟩
  · obtain ⟨s, hs, hlt⟩ := exists_step_of_lt_demand (t := t) (b := maxDepth + 1 - route.charge) (by omega) (by omega)
    have hstep := demand_add_charge_le hs
    have hpos := s.charge_pos
    exact exists_crosses (.step h hs) (Nat.le_of_not_lt hcharge) (by rw [Route.charge_cons]; omega)
termination_by demand t

theorem truncated_iff_exists_crosses (tree : SyntaxTree) (source : String) (maxDepth : Nat) :
    (tree.lower source maxDepth).truncated = true ↔ ∃ route t, Passed tree.root route t ∧ route.Crosses maxDepth := by
  rw [SyntaxTree.truncated_lower]
  constructor
  · intro hlt
    obtain ⟨_, hd, hlt⟩ := (lt_foldr_max_iff _ _).1 hlt
    obtain ⟨t, ht, rfl⟩ := List.mem_map.1 hd
    have hcharge : Route.charge [Step.toChild t] = 1 := rfl
    exact exists_crosses (.statement ht) (Nat.zero_le _) (by omega)
  · rintro ⟨route, t, h, -, hcharge⟩
    have hle := charge_add_demand_le h
    have hpos := demand_pos t
    omega

end Lowering

namespace SyntaxTree

/-- **The mark is exact.** If no node of the tree has the name of a placeholder, then a program is marked as truncated
exactly if a placeholder is held somewhere in it. Every placeholder stands for a node at which lowering crosses the
limit, and has the location of that node. -/
theorem truncated_iff_exists_placeholder (tree : SyntaxTree) (source : String) (maxDepth : Nat)
    (h : ∀ depth t, tree.root.AtDepth depth t → t.kind.name ≠ depthLimitKind) :
    ((tree.lower source maxDepth).truncated = true ↔
      ∃ path n, HoldsAt (tree.lower source maxDepth).body path n ∧ n.IsPlaceholder) ∧
    ∀ path n, HoldsAt (tree.lower source maxDepth).body path n → n.IsPlaceholder →
      (∃ route t, Stands tree.root (tree.lower source maxDepth).body path route t n ∧ route.Crosses maxDepth) ∧
      ∀ route t, Stands tree.root (tree.lower source maxDepth).body path route t n → route.Crosses maxDepth →
        n.loc = some t.location := by
  have hcrosses : ∀ path n, HoldsAt (tree.lower source maxDepth).body path n → n.IsPlaceholder →
      ∃ route t, Stands tree.root (tree.lower source maxDepth).body path route t n ∧ route.Crosses maxDepth := by
    intro path n hn hplaceholder
    cases provenance_of_holdsAt hn with
    | lowered hstands hcharge hcontent heq =>
      rw [heq, isPlaceholder_node_iff hcharge hcontent] at hplaceholder
      exact absurd hplaceholder (h _ _ hstands.passed.atDepth)
    | replaced hstands htail hcharge => exact ⟨_, _, hstands, htail, hcharge⟩
    | loopBody hstands _ _ _ hbody heq =>
      rw [heq, isPlaceholder_other_iff] at hplaceholder
      exact absurd hplaceholder (h _ _ (.child hstands.passed.atDepth (Tree.mem_children_of_child? hbody)))
  refine ⟨(truncated_iff_exists_crosses tree source maxDepth).trans ⟨?_, ?_⟩, fun path n hn hplaceholder =>
    ⟨hcrosses path n hn hplaceholder, fun route t hstands hcross => ?_⟩⟩
  · rintro ⟨route, t, hpassed, htail, hcharge⟩
    obtain ⟨path, n, hn⟩ := exists_stands hpassed source htail
    exact ⟨path, n, hn.holdsAt, (stands_lower hn).2 hcharge⟩
  · rintro ⟨path, n, hn, hplaceholder⟩
    obtain ⟨route, t, hstands, hcross⟩ := hcrosses path n hn hplaceholder
    exact ⟨route, t, hstands.passed, hcross⟩
  · rw [(stands_lower hstands).1 hcross.1, node_of_lt hcross.2]
    rfl

end SyntaxTree

theorem atDepth_paddedCall {depth : Nat} {t : Tree} (h : paddedCall.root.AtDepth depth t) :
    t.kind.name ≠ depthLimitKind := by
  have hall : paddedCall.root.everyNode (·.kind.name ≠ depthLimitKind) = true := by decide
  simpa using Tree.of_everyNode hall h

/-- in `(run)(/**/('AB'))` under limit four, the parentheses around the literal are passed and the literal is replaced:
the placeholder is the argument of the call and has the literal's location -/
theorem truncated_iff_exists_placeholder_paddedCall :
    (∀ depth t, paddedCall.root.AtDepth depth t → t.kind.name ≠ depthLimitKind) ∧
    (paddedCall.lower "(run)(/**/('AB'))" 4).truncated = true ∧
    ∃ n, HoldsAt (paddedCall.lower "(run)(/**/('AB'))" 4).body [1, 0, 0] n ∧ n.IsPlaceholder ∧
      n.loc = some payload.location := by
  obtain ⟨hmark, hlocation⟩ := SyntaxTree.truncated_iff_exists_placeholder paddedCall "(run)(/**/('AB'))" 4
    fun _ _ => atDepth_paddedCall
  have hstands : ∃ route, Stands paddedCall.root (paddedCall.lower "(run)(/**/('AB'))" 4).body [1, 0, 0] route payload
      (placeholder payload) ∧ route.Crosses 4 :=
    ⟨_, .content (.held (.held (.statement rfl rfl) rfl rfl rfl) rfl rfl rfl) rfl, by decide, by decide⟩
  obtain ⟨route, hstands, hcross⟩ := hstands
  have hplaceholder := isPlaceholder_placeholder payload
  exact ⟨fun _ _ => atDepth_paddedCall, hmark.2 ⟨_, _, hstands.holdsAt, hplaceholder⟩, _, hstands.holdsAt, hplaceholder,
    (hlocation _ _ hstands.holdsAt hplaceholder).2 route payload hstands hcross⟩

/-! ## How deep the program is nested -/

namespace SyntaxTree

theorem nestedWithin_lower (tree : SyntaxTree) (source : String) (maxDepth : Nat) :
    NestedWithin (maxDepth + 1) (tree.lower source maxDepth).body := by
  intro path n hn
  cases provenance_of_holdsAt hn with
  | lowered h hcharge =>
    have hlength := h.length_le_charge
    omega
  | replaced h htail =>
    have hlength := h.length_le
    omega
  | loopBody h hpath hcharge =>
    have hlength := h.length_le_charge
    rw [hpath, List.length_cons]
    omega

/-- **Nesting is within the limit.** However deep the tree, a path through the program has at most one node more than
the limit says, and a walk over the program from any state is made through with as many visits under way at once. -/
theorem nesting_le_limit (tree : SyntaxTree) (source : String) (maxDepth : Nat) :
    (∀ path n, HoldsAt (tree.lower source maxDepth).body path n → path.length ≤ maxDepth + 1) ∧
    ∀ {σ : Type} (cfg : WalkConfig σ) (scope : Scope) (s : WalkState σ),
      Walk.visitAllWithin cfg (maxDepth + 1) scope (tree.lower source maxDepth).body s =
        some (Walk.visitAll cfg scope (tree.lower source maxDepth).body s) :=
  ⟨tree.nestedWithin_lower source maxDepth, fun cfg scope s =>
    Walk.visitAllWithin_eq_some (tree.nestedWithin_lower source maxDepth) cfg scope s⟩

end SyntaxTree

end ScriptTriage

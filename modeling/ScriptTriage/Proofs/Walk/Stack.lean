import ScriptTriage.Walk

/-
How deep the nodes of a program are nested, and how many visits of a walk are under way at once.

A node holds the nodes in its lists, branches, sides and bodies; a path leads from a statement of the program to the
node held by it, the node held by that, and so on. A walk visits a node while it visits another that holds it, directly
or through a block or an assignment, so the visits under way are nodes on one path.

- `visitWithin`: a walk that gives up where more than a given number of visits would be under way.
- `visitAllWithin_eq_some`: if no path is longer than the number of visits allowed, then the walk does not give up, and
  it is the walk.
-/

namespace ScriptTriage

/-! ## Nodes in nodes -/

namespace Node

def held : Node → List Node
  | .variableDeclaration _ declarators _ => declarators.flatMap fun d => d.id.toList ++ d.init.toList
  | .functionDeclaration _ params body _ => params ++ body.toList.flatMap Block.body
  | .expressionStatement expression _ => expression.toList
  | .ifStatement test consequent alternate _ => test.toList ++ consequent.toList ++ alternate.toList
  | .loop _ body _ => body.toList
  | .returnStatement argument _ => argument.toList
  | .block b => b.body
  | .assignment _ left right _ => left.toList ++ right.toList
  | .call callee arguments _ => callee.toList ++ arguments
  | .identifier _ | .literal _ | .other _ _ => []

end Node

/-- the node at the end of a path: which of the nodes held is taken each time, the innermost first -/
inductive HoldsAt (body : List Node) : List Nat → Node → Prop where
  | statement {i n} (h : body[i]? = some n) : HoldsAt body [i] n
  | held {path n i m} (h : HoldsAt body path n) (hm : n.held[i]? = some m) : HoldsAt body (i :: path) m

/-- no path is longer than `bound` -/
def NestedWithin (bound : Nat) (body : List Node) : Prop :=
  ∀ path n, HoldsAt body path n → path.length ≤ bound

variable {body : List Node} {path : List Nat} {n m : Node} {bound : Nat}

/-- a path inside a node leads on from the node -/
theorem HoldsAt.inside {i : Nat} (hn : body[i]? = some n) (h : HoldsAt n.held path m) :
    HoldsAt body (path ++ [i]) m := by
  induction h with
  | statement h => exact .held (.statement hn) h
  | held _ hm ih => exact .held ih hm

namespace NestedWithin

/-- paths inside a node are shorter than those that lead through it -/
theorem inside (h : NestedWithin bound body) (hn : n ∈ body) : NestedWithin (bound - 1) n.held := by
  intro path m hm
  obtain ⟨i, hi⟩ := List.mem_iff_getElem?.1 hn
  have hlength := h _ m (hm.inside hi)
  simp only [List.length_append, List.length_singleton] at hlength
  omega

theorem mono {bound' : Nat} (h : NestedWithin bound body) (hle : bound ≤ bound') : NestedWithin bound' body :=
  fun path n hn => Nat.le_trans (h path n hn) hle

theorem bound_ne_zero (h : NestedWithin bound body) (hn : n ∈ body) : bound ≠ 0 := by
  obtain ⟨i, hi⟩ := List.mem_iff_getElem?.1 hn
  have hlength := h [i] n (.statement hi)
  simp only [List.length_singleton] at hlength
  omega

end NestedWithin

/-! ## Walks with few visits under way -/

namespace Walk

variable {σ : Type}

/-- visit statements in turn, each by `inner` -/
def visitAllBy (inner : Node → WalkState σ → Option (WalkState σ)) (ns : List Node) (s : WalkState σ) :
    Option (WalkState σ) :=
  ns.foldlM (fun s n => inner n s) s

/-- visit a branch of an `if`, its statements by `inner` -/
def visitBranchBy (inner : Node → WalkState σ → Option (WalkState σ)) :
    Option Node → WalkState σ → Option (WalkState σ)
  | some (.block (.mk body _)), s => visitAllBy inner body s
  | _, s => some s

/-- visit one node in a scope, where all visits that this leads to are made by `inner` -/
def visitBy (cfg : WalkConfig σ) (inner : Scope → Node → WalkState σ → Option (WalkState σ)) (scope : Scope) :
    Node → WalkState σ → Option (WalkState σ)
  | .variableDeclaration _ declarators _, s => some (declarators.foldl (fun s d => onDeclarator cfg scope d s) s)
  | .functionDeclaration (some id) _ (some (.mk body _)) _, s => visitAllBy (inner ⟨id.name⟩) body s
  | .expressionStatement (some (.assignment operator (some left) (some right) _)) loc, s =>
    if follows operator then
      (inner scope left (onTarget scope left s)).bind fun s => (inner scope right s).map
        (record (·.addBreakpoint .assignment loc scope))
    else some s
  | .expressionStatement (some (.call _ arguments _)) _, s =>
    some (arguments.foldl (fun s n => onLiteralNode cfg n s) s)
  | .ifStatement _ consequent alternate _, s =>
    (visitBranchBy (inner scope) alternate s).bind (visitBranchBy (inner scope) consequent)
  | .loop kind _ loc, s => some (if kind = .forOf then s else record (·.addBreakpoint .loop loc scope) s)
  | .returnStatement (some argument) _, s => some (onLiteralNode cfg argument s)
  | .literal l, s => some (onLiteral cfg l s)
  | _, s => some s

/-- visit one node, or give up where more than `frames` visits would be under way -/
def visitWithin (cfg : WalkConfig σ) : (frames : Nat) → Scope → Node → WalkState σ → Option (WalkState σ)
  | 0, _, _, _ => none
  | frames + 1, scope, n, s => visitBy cfg (visitWithin cfg frames) scope n s

/-- visit statements in turn, or give up where more than `frames` visits would be under way -/
def visitAllWithin (cfg : WalkConfig σ) (frames : Nat) (scope : Scope) (ns : List Node) (s : WalkState σ) :
    Option (WalkState σ) :=
  visitAllBy (visitWithin cfg frames scope) ns s

variable {cfg : WalkConfig σ} {scope : Scope} {ns : List Node}

theorem visitAllBy_eq_some {inner : Node → WalkState σ → Option (WalkState σ)}
    (h : ∀ n ∈ ns, ∀ s, inner n s = some (visit cfg scope n s)) (s : WalkState σ) :
    visitAllBy inner ns s = some (visitAll cfg scope ns s) := by
  induction ns generalizing s with
  | nil => rfl
  | cons n ns ih =>
    have hrest := ih (fun m hm => h m (List.mem_cons_of_mem n hm)) (visit cfg scope n s)
    rw [visitAllBy] at hrest ⊢
    rw [List.foldlM_cons, h n List.mem_cons_self, visitAll]
    exact hrest

theorem visitBranchBy_eq_some {inner : Node → WalkState σ → Option (WalkState σ)} {branch : Option Node}
    (h : ∀ b ∈ branch, ∀ n ∈ b.held, ∀ s, inner n s = some (visit cfg scope n s)) (s : WalkState σ) :
    visitBranchBy inner branch s = some (visitBranch cfg scope branch s) := by
  cases branch with
  | none => rfl
  | some b =>
    cases b with
    | block b =>
      obtain ⟨body, loc⟩ := b
      rw [visitBranchBy, visitBranch]
      exact visitAllBy_eq_some (h _ rfl) s
    | _ => rfl

/-- a visit is made through, if the visits are that it leads to: those of nodes one or two levels further inside -/
theorem visitBy_eq_some {inner : Scope → Node → WalkState σ → Option (WalkState σ)} {n : Node}
    (hheld : ∀ m ∈ n.held, ∀ scope s, inner scope m s = some (visit cfg scope m s))
    (hinside : ∀ m ∈ n.held, ∀ k ∈ m.held, ∀ scope s, inner scope k s = some (visit cfg scope k s))
    (scope : Scope) (s : WalkState σ) : visitBy cfg inner scope n s = some (visit cfg scope n s) := by
  cases n with
  | functionDeclaration id params body loc =>
    match id, body with
    | some id, some (.mk body _) =>
      rw [visitBy, visit]
      exact visitAllBy_eq_some (fun m hm => hheld m (by simp [Node.held, Block.body, hm]) _) s
    | some _, none => rfl
    | none, some _ => rfl
    | none, none => rfl
  | expressionStatement expression loc =>
    cases expression with
    | none => rfl
    | some e =>
      cases e with
      | assignment operator left right aloc =>
        match left, right with
        | some left, some right =>
          have hsides := hinside _ (List.mem_singleton_self _)
          rw [visitBy, visit]
          split
          · rw [hsides left (by simp [Node.held]), Option.bind_some, hsides right (by simp [Node.held])]
            rfl
          · rfl
        | some _, none => rfl
        | none, _ => rfl
      | _ => rfl
  | ifStatement test consequent alternate loc =>
    have hbranch : ∀ b, b ∈ consequent ∨ b ∈ alternate → ∀ m ∈ b.held, ∀ s,
        inner scope m s = some (visit cfg scope m s) := by
      intro b hb m hm
      refine hinside b ?_ m hm scope
      rcases hb with hb | hb
      · simp [Node.held, Option.mem_def.1 hb]
      · simp [Node.held, Option.mem_def.1 hb]
    rw [visitBy, visit, visitBranchBy_eq_some fun b hb => hbranch b (.inr hb), Option.bind_some,
      visitBranchBy_eq_some fun b hb => hbranch b (.inl hb)]
  | returnStatement argument loc => cases argument <;> rfl
  | _ => rfl

/-- with as many frames as paths are long, a walk is made through -/
theorem visitAllWithin_eq_some {frames : Nat} (h : NestedWithin frames ns) (cfg : WalkConfig σ) (scope : Scope)
    (s : WalkState σ) : visitAllWithin cfg frames scope ns s = some (visitAll cfg scope ns s) := by
  suffices hvisit : ∀ n ∈ ns, ∀ s, visitWithin cfg frames scope n s = some (visit cfg scope n s) from
    visitAllBy_eq_some hvisit s
  induction frames generalizing ns scope with
  | zero => exact fun n hn => absurd rfl (h.bound_ne_zero hn)
  | succ frames ih =>
    intro n hn s
    have hheld : NestedWithin frames n.held := h.inside hn
    refine visitBy_eq_some (fun m hm scope s => ih hheld scope m hm s) (fun m hm k hk scope s => ?_) scope s
    have hinside : NestedWithin frames m.held := (hheld.inside hm).mono (Nat.sub_le _ _)
    exact ih hinside scope k hk s

end Walk

end ScriptTriage

import ScriptTriage.Proofs.Lowering.Visibility
import ScriptTriage.Proofs.Walk.Stack

/-
Where the nodes of a lowered program come from.

Lowering goes down the tree in steps. Most steps lead to a child, or through a wrapper (a declarator, the body of a
function, an `else` clause, the arguments of a call) to a child of it, and are charged as many levels as they go down.
Two kinds of steps are charged another number: those to a parameter, which lead through the list of parameters and are
charged one level, and those to an alternative without an `else` clause, which lead to a child and are charged two.

- `held_layer`: what a layer holds is what its steps lead to, lowered, in the same order; a loop holds its body, to
  which no step leads.
- `Stands`: which node of a tree stands where in a program, told by the shapes of the two alone.
- `stands_lower`: in a lowered program, what stands for a node is what lowering makes of it with the levels that are
  left, and past the limit it is a placeholder.
- `exists_stands`: whatever the steps lead to before the limit, and one step past it, is there.
- `provenance_of_holdsAt`: every node of a lowered program stands for a node of the tree, or is the body of a loop.
-/

namespace ScriptTriage

/-! ## Depth in a tree -/

namespace Tree

/-- the nodes of a tree, each with the number of its ancestors -/
inductive AtDepth (root : Tree) : Nat → Tree → Prop where
  | root : AtDepth root 0 root
  | child {depth t c} (h : AtDepth root depth t) (hc : c ∈ t.children) : AtDepth root (depth + 1) c

variable {root t c u : Tree} {depth depth' : Nat}

theorem AtDepth.trans (h : AtDepth root depth t) (h' : AtDepth t depth' u) : AtDepth root (depth + depth') u := by
  induction h' with
  | root => exact h
  | child _ hc ih => exact .child ih hc

theorem AtDepth.of_mem (h : c ∈ t.children) : AtDepth t 1 c := .child .root h

mutual

/-- does every node of the tree pass a test? -/
def everyNode (p : Tree → Bool) : Tree → Bool
  | .node kind named extra role span children =>
    p (.node kind named extra role span children) && everyNodeOf p children

def everyNodeOf (p : Tree → Bool) : List Tree → Bool
  | [] => true
  | t :: ts => everyNode p t && everyNodeOf p ts

end

theorem everyNode_of_mem {p : Tree → Bool} {ts : List Tree} (h : everyNodeOf p ts = true) (hc : c ∈ ts) :
    c.everyNode p = true := by
  induction ts with
  | nil => cases hc
  | cons t ts ih =>
    rw [everyNodeOf, Bool.and_eq_true] at h
    rcases List.mem_cons.1 hc with rfl | hc
    · exact h.1
    · exact ih h.2 hc

theorem of_everyNode {p : Tree → Bool} (hall : root.everyNode p = true) (h : AtDepth root depth t) : p t = true := by
  have hopen : ∀ t : Tree, t.everyNode p = true → p t = true ∧ everyNodeOf p t.children = true := by
    intro t ht
    obtain ⟨kind, named, extra, role, span, children⟩ := t
    rwa [everyNode, Bool.and_eq_true] at ht
  suffices hevery : t.everyNode p = true from (hopen t hevery).1
  induction h with
  | root => exact hall
  | @child depth t c _ hc ih => exact everyNode_of_mem (hopen t ih).2 hc

theorem mem_children_of_mem_namedChildren (h : c ∈ t.namedChildren) : c ∈ t.children := (List.mem_filter.1 h).1

theorem mem_children_of_child? {role : Role} (h : t.child? role = some c) : c ∈ t.children :=
  List.mem_of_find?_eq_some h

end Tree

/-! ## Steps -/

namespace Lowering

/-- one step of lowering down a tree -/
inductive Step where
  /-- to a child -/
  | toChild (target : Tree)
  /-- through a child to a child of it -/
  | through (wrapper target : Tree)
  /-- through the list of parameters to a parameter -/
  | toParameter (list target : Tree)
  /-- to an alternative that stands in no `else` clause -/
  | toBareAlternative (target : Tree)

namespace Step

def target : Step → Tree
  | toChild target => target
  | through _ target => target
  | toParameter _ target => target
  | toBareAlternative target => target

/-- how many levels of the tree the step goes down -/
def depth : Step → Nat
  | toChild _ => 1
  | through _ _ => 2
  | toParameter _ _ => 2
  | toBareAlternative _ => 1

/-- how many levels lowering charges for the step -/
def charge : Step → Nat
  | toChild _ => 1
  | through _ _ => 2
  | toParameter _ _ => 1
  | toBareAlternative _ => 2

/-- does the step lead into a list of parameters? -/
def isParameter : Step → Bool
  | toParameter _ _ => true
  | _ => false

/-- does the step lead to an alternative without an `else` clause? -/
def isBareAlternative : Step → Bool
  | toBareAlternative _ => true
  | _ => false

/-- what stands at the end of the step, if `child` and `grandchild` lower what costs one and two levels -/
def lowered (child grandchild : Tree → Lowered Node) : Step → Node
  | toChild target => (child target).value
  | through _ target => (grandchild target).value
  | toParameter _ target => (child target).value
  | toBareAlternative target => (grandchild target).value

end Step

/-- the step to an alternative: the first item of an `else` clause, or else the node itself -/
def stepsToAlternative (t : Tree) : List Step :=
  if t.kind = .elseClause then t.namedChildren.head?.toList.map (.through t) else [.toBareAlternative t]

/-- the steps that lowering takes from a node -/
def steps (t : Tree) : List Step :=
  match t.kind with
  | .variableDeclaration | .lexicalDeclaration => (declarators t).flatMap fun d => (declaratorParts d).map (.through d)
  | .functionDeclaration | .generatorFunctionDeclaration =>
    ((t.child? .parameters).toList.flatMap fun list => list.namedChildren.map (.toParameter list)) ++
      (functionBody? t).toList.flatMap fun body => body.namedChildren.map (.through body)
  | .expressionStatement | .returnStatement | .parenthesizedExpression => t.namedChildren.head?.toList.map .toChild
  | .ifStatement =>
    ((t.child? .condition).toList ++ (t.child? .consequence).toList).map .toChild ++
      (t.child? .alternative).toList.flatMap stepsToAlternative
  | .statementBlock => t.namedChildren.map .toChild
  | .assignmentExpression | .augmentedAssignmentExpression =>
    ((t.child? .left).toList ++ (t.child? .right).toList).map .toChild
  | .callExpression =>
    (t.child? .function).toList.map .toChild ++
      ((t.child? .arguments).filter (·.kind = .arguments)).toList.flatMap fun list =>
        list.namedChildren.map (.through list)
  | _ => []

/-- what lowering sees in place of a node: the content of parentheses, if there is any -/
def content? (t : Tree) : Option Tree :=
  if t.kind = .parenthesizedExpression then t.namedChildren.head? else none

variable {source : String} {child grandchild : Tree → Lowered Node} {t c : Tree} {s : Step}

theorem value_all_map {α : Type} (f : Tree → Lowered α) (l : List Tree) :
    (Lowered.all (l.map f)).value = l.map fun c => (f c).value := by
  simp [Lowered.all]

theorem toList_value_optional_map {α : Type} (f : Tree → Lowered α) (c : Option Tree) :
    (Lowered.optional (c.map f)).value.toList = c.toList.map fun c => (f c).value := by
  cases c <;> rfl

theorem body_block (below : Tree → Lowered Node) (t : Tree) :
    (block below t).value.body = t.namedChildren.map fun c => (below c).value :=
  value_all_map below t.namedChildren

theorem getD_map_namedChildren (part : Option Tree) :
    (part.map (·.namedChildren)).getD [] = part.toList.flatMap (·.namedChildren) := by
  cases part <;> simp

theorem toList_alternative? (t : Tree) :
    (alternative? t).toList = ((t.child? .alternative).toList.flatMap stepsToAlternative).map Step.target := by
  rw [alternative?]
  cases t.child? .alternative with
  | none => rfl
  | some clause =>
    rw [Option.bind_some, elseStatement?, Option.toList_some, List.flatMap_singleton, stepsToAlternative]
    split
    · simp [Function.comp_def, Step.target]
    · rfl

theorem lowered_stepsToAlternative {s : Step} (h : s ∈ stepsToAlternative t) :
    s.lowered child grandchild = (grandchild s.target).value := by
  unfold stepsToAlternative at h
  split at h
  · obtain ⟨c, -, rfl⟩ := List.mem_map.1 h
    rfl
  · rw [List.mem_singleton.1 h]
    rfl

/-- what a layer holds is what its steps lead to -/
theorem held_layer (hcontent : content? t = none) (hloop : t.kind.isLoop = false) :
    (layer source child grandchild t).value.held = (steps t).map (Step.lowered child grandchild) := by
  unfold layer steps
  cases hk : t.kind with
  | variableDeclaration | lexicalDeclaration =>
    simp only [Lowered.map, Node.held, value_all_map, List.flatMap_map, List.map_flatMap, List.map_map]
    refine List.flatMap_congr fun d _ => ?_
    simp [declarator, Lowered.map₂, Declarator.id, Declarator.init, toList_value_optional_map, declaratorParts,
      Function.comp_def, Step.lowered]
  | functionDeclaration | generatorFunctionDeclaration =>
    simp only [Lowered.map₂, Node.held, value_all_map, toList_value_optional_map, List.flatMap_map, body_block,
      parameters, getD_map_namedChildren]
    simp [List.map_flatMap, Function.comp_def, Step.lowered]
  | expressionStatement | returnStatement =>
    simp [Lowered.map, Node.held, toList_value_optional_map, Function.comp_def, Step.lowered]
  | ifStatement =>
    have halternative : (alternative? t).toList.map (fun c => (grandchild c).value) =
        ((t.child? .alternative).toList.flatMap stepsToAlternative).map (Step.lowered child grandchild) := by
      rw [toList_alternative?, List.map_map]
      refine List.map_congr_left fun s hs => ?_
      obtain ⟨clause, -, hs⟩ := List.mem_flatMap.1 hs
      exact (lowered_stepsToAlternative hs).symm
    simp only [Lowered.map₂, Node.held, toList_value_optional_map, halternative, List.map_append, List.map_map,
      Function.comp_def, Step.lowered]
  | statementBlock =>
    simp [Lowered.map, Node.held, body_block, Function.comp_def, Step.lowered]
  | assignmentExpression | augmentedAssignmentExpression =>
    simp [Lowered.map₂, Node.held, toList_value_optional_map, Function.comp_def, Step.lowered]
  | callExpression =>
    simp only [Lowered.map₂, Node.held, value_all_map, toList_value_optional_map, arguments, getD_map_namedChildren]
    simp [List.map_flatMap, Function.comp_def, Step.lowered]
  | parenthesizedExpression =>
    rw [content?, if_pos hk] at hcontent
    simp only [hcontent]
    rfl
  | forStatement | forInStatement | whileStatement | doStatement =>
    rw [hk] at hloop
    cases hloop
  | _ => rfl

/-- a loop holds its body, as an opaque node -/
theorem held_layer_of_isLoop (hloop : t.kind.isLoop = true) :
    (layer source child grandchild t).value.held = (t.child? .body).toList.map other := by
  unfold layer
  cases hk : t.kind with
  | forStatement | forInStatement | whileStatement | doStatement =>
    simp only [Lowered.whole, loop, Node.held]
    cases t.child? .body <;> rfl
  | _ =>
    rw [hk] at hloop
    cases hloop

theorem steps_of_isLoop (hloop : t.kind.isLoop = true) : steps t = [] := by
  unfold steps
  cases hk : t.kind with
  | forStatement | forInStatement | whileStatement | doStatement => rfl
  | _ => simp [hk, Kind.isLoop] at hloop

theorem isLoop_eq_false_of_mem_steps (h : s ∈ steps t) : t.kind.isLoop = false := by
  rw [Bool.eq_false_iff]
  intro hloop
  simp [steps_of_isLoop hloop] at h

theorem kind_of_content? (h : content? t = some c) :
    t.kind = .parenthesizedExpression ∧ t.namedChildren.head? = some c := by
  unfold content? at h
  split at h
  · exact ⟨‹_›, h⟩
  · cases h

/-- the only step from parentheses is the one to their content -/
theorem steps_of_content? (h : content? t = some c) : steps t = [.toChild c] := by
  obtain ⟨hk, hc⟩ := kind_of_content? h
  simp [steps, hk, hc]

/-! ### What steps are charged, and how far they lead -/

theorem charge_stepsToAlternative (h : s ∈ stepsToAlternative t) : s.charge = 2 := by
  unfold stepsToAlternative at h
  split at h
  · obtain ⟨c, -, rfl⟩ := List.mem_map.1 h
    rfl
  · rw [List.mem_singleton.1 h]
    rfl

theorem charge_of_mem_alternatives {l : List Tree} (h : s ∈ l.flatMap stepsToAlternative) : s.charge = 2 := by
  obtain ⟨clause, -, hs⟩ := List.mem_flatMap.1 h
  exact charge_stepsToAlternative hs

theorem near_eq (t : Tree) : near t = ((steps t).filter (·.charge = 1)).map Step.target := by
  unfold near steps
  cases t.kind with
  | ifStatement =>
    have hnone : ((t.child? .alternative).toList.flatMap stepsToAlternative).filter (·.charge = 1) = [] :=
      List.filter_eq_nil_iff.2 fun s hs => by simp [charge_of_mem_alternatives hs]
    rw [List.filter_append, hnone]
    simp [List.filter_map, Function.comp_def, Step.charge, Step.target]
  | _ =>
    simp [parameters, getD_map_namedChildren, List.filter_map, List.filter_flatMap, List.map_flatMap, Function.comp_def,
      Step.charge, Step.target]

theorem far_eq (t : Tree) : far t = ((steps t).filter (·.charge = 2)).map Step.target := by
  unfold far steps
  cases t.kind with
  | ifStatement =>
    have hall : ((t.child? .alternative).toList.flatMap stepsToAlternative).filter (·.charge = 2) =
        (t.child? .alternative).toList.flatMap stepsToAlternative :=
      List.filter_eq_self.2 fun s hs => by simp [charge_of_mem_alternatives hs]
    rw [List.filter_append, hall, toList_alternative?]
    simp [List.filter_map, Function.comp_def, Step.charge]
  | _ =>
    simp [arguments, getD_map_namedChildren, List.filter_map, List.filter_flatMap, List.map_flatMap, Function.comp_def,
      Step.charge, Step.target]

theorem mem_near_iff : c ∈ near t ↔ ∃ s ∈ steps t, s.charge = 1 ∧ s.target = c := by
  simp [near_eq, and_assoc]

theorem mem_far_iff : c ∈ far t ↔ ∃ s ∈ steps t, s.charge = 2 ∧ s.target = c := by
  simp [far_eq, and_assoc]

theorem Step.charge_eq (s : Step) : s.charge = 1 ∨ s.charge = 2 := by
  cases s with
  | toChild | toParameter => exact .inl rfl
  | through | toBareAlternative => exact .inr rfl

theorem Step.charge_pos (s : Step) : 0 < s.charge := by
  rcases s.charge_eq with h | h
  · omega
  · omega

theorem demand_add_charge_le (h : s ∈ steps t) : demand s.target + s.charge ≤ demand t := by
  rcases s.charge_eq with hcharge | hcharge
  · have hlt := demand_lt_of_mem_near (mem_near_iff.2 ⟨s, h, hcharge, rfl⟩)
    omega
  · have hlt := demand_succ_lt_of_mem_far (mem_far_iff.2 ⟨s, h, hcharge, rfl⟩)
    omega

/-- a tree that demands more than its own level demands it for the sake of a step -/
theorem exists_step_of_lt_demand {b : Nat} (hb : b ≠ 0) (h : b < demand t) :
    ∃ s ∈ steps t, b < demand s.target + s.charge := by
  rcases (lt_demand_iff b t).1 h with hzero | ⟨c, hc, hlt⟩ | ⟨c, hc, hlt⟩
  · exact absurd hzero hb
  · obtain ⟨s, hs, hcharge, rfl⟩ := mem_near_iff.1 hc
    exact ⟨s, hs, by omega⟩
  · obtain ⟨s, hs, hcharge, rfl⟩ := mem_far_iff.1 hc
    exact ⟨s, hs, by omega⟩

theorem atDepth_stepsToAlternative {clause : Tree} (hclause : clause ∈ t.children) (h : s ∈ stepsToAlternative clause) :
    t.AtDepth s.depth s.target := by
  unfold stepsToAlternative at h
  split at h
  · obtain ⟨c, hc, rfl⟩ := List.mem_map.1 h
    have hc := List.mem_of_head? (Option.mem_toList.1 hc)
    exact .child (.of_mem hclause) (Tree.mem_children_of_mem_namedChildren hc)
  · rw [List.mem_singleton.1 h]
    exact .of_mem hclause

/-- a step leads down as many levels of the tree as its depth says -/
theorem atDepth_of_mem_steps (h : s ∈ steps t) : t.AtDepth s.depth s.target := by
  -- to a named child, and through a wrapper to a named child of it
  have hchild : ∀ c ∈ t.namedChildren, t.AtDepth 1 c := fun c hc =>
    .of_mem (Tree.mem_children_of_mem_namedChildren hc)
  have hthrough : ∀ w ∈ t.children, ∀ c ∈ w.namedChildren, t.AtDepth 2 c := fun w hw c hc =>
    .child (.of_mem hw) (Tree.mem_children_of_mem_namedChildren hc)
  unfold steps at h
  cases hk : t.kind with
  | variableDeclaration | lexicalDeclaration =>
    simp only [hk, List.mem_flatMap, List.mem_map] at h
    obtain ⟨d, hd, c, hc, rfl⟩ := h
    have hd : d ∈ t.children := Tree.mem_children_of_mem_namedChildren (List.mem_filter.1 hd).1
    simp only [declaratorParts, List.mem_append, Option.mem_toList] at hc
    rcases hc with hc | hc
    · exact .child (.of_mem hd) (Tree.mem_children_of_child? hc)
    · exact .child (.of_mem hd) (Tree.mem_children_of_child? hc)
  | functionDeclaration | generatorFunctionDeclaration =>
    simp only [hk, List.mem_append, List.mem_flatMap, List.mem_map, Option.mem_toList] at h
    rcases h with ⟨list, hlist, c, hc, rfl⟩ | ⟨body, hbody, c, hc, rfl⟩
    · exact hthrough list (Tree.mem_children_of_child? hlist) c hc
    · exact hthrough body (Tree.mem_children_of_child? (Option.filter_eq_some_iff.1 hbody).1) c hc
  | expressionStatement | returnStatement | parenthesizedExpression =>
    simp only [hk, List.mem_map, Option.mem_toList] at h
    obtain ⟨c, hc, rfl⟩ := h
    exact hchild c (List.mem_of_head? hc)
  | ifStatement =>
    simp only [hk, List.mem_append, List.mem_map, List.mem_flatMap, Option.mem_toList] at h
    rcases h with ⟨c, hc | hc, rfl⟩ | ⟨clause, hclause, hs⟩
    · exact .of_mem (Tree.mem_children_of_child? hc)
    · exact .of_mem (Tree.mem_children_of_child? hc)
    · exact atDepth_stepsToAlternative (Tree.mem_children_of_child? hclause) hs
  | statementBlock =>
    simp only [hk, List.mem_map] at h
    obtain ⟨c, hc, rfl⟩ := h
    exact hchild c hc
  | assignmentExpression | augmentedAssignmentExpression =>
    simp only [hk, List.mem_append, List.mem_map, Option.mem_toList] at h
    obtain ⟨c, hc | hc, rfl⟩ := h
    · exact .of_mem (Tree.mem_children_of_child? hc)
    · exact .of_mem (Tree.mem_children_of_child? hc)
  | callExpression =>
    simp only [hk, List.mem_append, List.mem_map, List.mem_flatMap, Option.mem_toList] at h
    rcases h with ⟨c, hc, rfl⟩ | ⟨list, hlist, c, hc, rfl⟩
    · exact .of_mem (Tree.mem_children_of_child? hc)
    · exact hthrough list (Tree.mem_children_of_child? (Option.filter_eq_some_iff.1 hlist).1) c hc
  | _ => simp [hk] at h

/-! ## Routes -/

/-- steps one after the other, the last one first -/
abbrev Route := List Step

namespace Route

/-- the depth in the tree to which a route leads -/
def depth : Route → Nat
  | [] => 0
  | s :: route => s.depth + depth route

/-- the levels that lowering charges for a route -/
def charge : Route → Nat
  | [] => 0
  | s :: route => s.charge + charge route

/-- the levels that may be entered at the end of a route, that one included -/
def levelsLeft (maxDepth : Nat) (route : Route) : Nat := maxDepth + 1 - route.charge

/-- how often the route leads into a list of parameters -/
def parameterLists (route : Route) : Nat := route.countP Step.isParameter

/-- how often the route leads to an alternative without an `else` clause -/
def bareAlternatives (route : Route) : Nat := route.countP Step.isBareAlternative

theorem charge_cons (s : Step) (route : Route) : charge (s :: route) = s.charge + charge route := rfl

theorem charge_tail_le (route : Route) : charge route.tail ≤ charge route := by
  cases route with
  | nil => exact Nat.le_refl _
  | cons s route => exact Nat.le_add_left _ _

theorem levelsLeft_cons (maxDepth : Nat) (s : Step) (route : Route) :
    levelsLeft maxDepth (s :: route) = levelsLeft maxDepth route - s.charge := by
  rw [levelsLeft, levelsLeft, charge_cons]
  omega

theorem levelsLeft_of_le {maxDepth : Nat} {route : Route} (h : route.charge ≤ maxDepth) :
    route.levelsLeft maxDepth = maxDepth - route.charge + 1 := by
  rw [levelsLeft]
  omega

theorem levelsLeft_of_lt {maxDepth : Nat} {route : Route} (h : maxDepth < route.charge) :
    route.levelsLeft maxDepth = 0 := by
  rw [levelsLeft]
  omega

theorem charge_add_parameterLists (route : Route) :
    route.charge + route.parameterLists = route.depth + route.bareAlternatives := by
  induction route with
  | nil => rfl
  | cons s route ih =>
    simp only [charge, depth, parameterLists, bareAlternatives, List.countP_cons] at ih ⊢
    cases s <;> simp [Step.charge, Step.depth, Step.isParameter, Step.isBareAlternative] <;> omega

end Route

/-- the nodes that lowering would pass, were there no limit, with the routes that lead to them -/
inductive Passed (root : Tree) : Route → Tree → Prop where
  | statement {t : Tree} (h : t ∈ root.namedChildren) : Passed root [.toChild t] t
  | step {route : Route} {t : Tree} {s : Step} (h : Passed root route t) (hs : s ∈ steps t) :
    Passed root (s :: route) s.target

/-- at the end of `path` in `body`, a node stands for the node of the tree at the end of `route`. A statement stands for
a child of the root, the nodes that it holds stand for what the steps from there lead to, in the same order, and what
stands for parentheses stands for their content as well. -/
inductive Stands (root : Tree) (body : List Node) : List Nat → Route → Tree → Node → Prop where
  | statement {i : Nat} {t : Tree} {n : Node} (ht : root.namedChildren[i]? = some t) (hn : body[i]? = some n) :
    Stands root body [i] [.toChild t] t n
  | held {path : List Nat} {route : Route} {t : Tree} {n m : Node} {i : Nat} {s : Step}
    (h : Stands root body path route t n) (hcontent : content? t = none) (hs : (steps t)[i]? = some s)
    (hm : n.held[i]? = some m) : Stands root body (i :: path) (s :: route) s.target m
  | content {path : List Nat} {route : Route} {t c : Tree} {n : Node} (h : Stands root body path route t n)
    (hc : content? t = some c) : Stands root body path (.toChild c :: route) c n

section Positions

variable {root : Tree} {body : List Node} {path : List Nat} {route : Route} {n m : Node}

theorem Passed.atDepth (h : Passed root route t) : root.AtDepth route.depth t := by
  induction h with
  | statement h => exact .of_mem (Tree.mem_children_of_mem_namedChildren h)
  | @step route t s _ hs ih =>
    have hdepth := ih.trans (atDepth_of_mem_steps hs)
    rwa [Nat.add_comm] at hdepth

theorem Stands.holdsAt (h : Stands root body path route t n) : HoldsAt body path n := by
  induction h with
  | statement _ hn => exact .statement hn
  | held _ _ _ hm ih => exact .held ih hm
  | content _ _ ih => exact ih

theorem Stands.passed (h : Stands root body path route t n) : Passed root route t := by
  induction h with
  | statement ht _ => exact .statement (List.mem_of_getElem? ht)
  | held _ _ hs _ ih => exact .step ih (List.mem_of_getElem? hs)
  | @content path route t c n _ hc ih => exact .step (s := .toChild c) ih (by simp [steps_of_content? hc])

theorem Stands.length_le_charge (h : Stands root body path route t n) : path.length ≤ route.charge := by
  induction h with
  | statement => exact Nat.le_refl 1
  | @held path route t n m i s _ _ _ _ ih =>
    have hpos := s.charge_pos
    rw [Route.charge_cons, List.length_cons]
    omega
  | content _ _ ih =>
    rw [Route.charge_cons]
    omega

/-- a path goes one node further than what was charged before the last step -/
theorem Stands.length_le (h : Stands root body path route t n) : path.length ≤ Route.charge route.tail + 1 := by
  cases h with
  | statement => exact Nat.le_refl 1
  | held h => exact Nat.succ_le_succ h.length_le_charge
  | content h => exact Nat.le_succ_of_le h.length_le_charge

end Positions

end Lowering

/-! ## Positions in a lowered program -/

/-- does the node stand for something past the depth limit? -/
def Node.IsPlaceholder (n : Node) : Prop := ∃ loc, n = .other depthLimitKind loc

theorem Node.IsPlaceholder.held_eq_nil {n : Node} (h : n.IsPlaceholder) : n.held = [] := by
  obtain ⟨loc, rfl⟩ := h
  rfl

namespace Lowering

variable {t c : Tree}

theorem isPlaceholder_placeholder (t : Tree) : (placeholder t).IsPlaceholder := ⟨_, rfl⟩

theorem isPlaceholder_other_iff : (other t).IsPlaceholder ↔ t.kind.name = depthLimitKind := by
  simp [other, Node.IsPlaceholder]

/-- within the limit, a placeholder is made of nothing but a node that has the name of a placeholder itself -/
theorem isPlaceholder_node_iff {maxDepth : Nat} {route : Route} (hcharge : route.charge ≤ maxDepth)
    (hcontent : content? t = none) (source : String) :
    (node source (route.levelsLeft maxDepth) t).value.IsPlaceholder ↔ t.kind.name = depthLimitKind := by
  rw [Route.levelsLeft_of_le hcharge, node_succ]
  cases hshape : t.kind.hasShape with
  | false =>
    rw [layer_of_shapeless hshape]
    exact isPlaceholder_other_iff
  | true =>
    unfold layer
    cases hk : t.kind with
    | parenthesizedExpression =>
      rw [content?, if_pos hk] at hcontent
      simp only [hcontent]
      exact isPlaceholder_other_iff.trans (by rw [hk])
    | variableDeclarator | elseClause | arguments | escapeSequence | other _ => simp [hk, Kind.hasShape] at hshape
    | _ =>
      refine iff_of_false ?_ (by decide)
      rintro ⟨loc, hother⟩
      cases hother

/-- past the limit, a node is its placeholder -/
theorem node_of_lt {maxDepth : Nat} {route : Route} (h : maxDepth < route.charge) (source : String) (t : Tree) :
    (node source (route.levelsLeft maxDepth) t).value = placeholder t := by
  rw [Route.levelsLeft_of_lt h]
  rfl

variable {tree : SyntaxTree} {source : String} {maxDepth : Nat} {path : List Nat} {route : Route} {s : Step}
  {n : Node}

theorem getElem?_body_lower (tree : SyntaxTree) (source : String) (maxDepth i : Nat) :
    (tree.lower source maxDepth).body[i]? =
      (tree.root.namedChildren[i]?).map fun t => (node source maxDepth t).value := by
  simp only [SyntaxTree.lower, value_all_map, List.getElem?_map]

/-- within the limit, a node holds what lowering makes of the ends of its steps with the levels that are left there -/
theorem held_node (hcharge : route.charge ≤ maxDepth) (hcontent : content? t = none) (hloop : t.kind.isLoop = false)
    (source : String) :
    (node source (route.levelsLeft maxDepth) t).value.held =
      (steps t).map fun s => (node source (Route.levelsLeft maxDepth (s :: route)) s.target).value := by
  rw [Route.levelsLeft_of_le hcharge, node_succ, held_layer hcontent hloop]
  refine List.map_congr_left fun s _ => ?_
  rw [Route.levelsLeft_cons, Route.levelsLeft_of_le hcharge]
  cases s with
  | toChild | through | toParameter | toBareAlternative => rfl

theorem getElem?_held_node {i : Nat} (hcharge : route.charge ≤ maxDepth) (hcontent : content? t = none)
    (hs : (steps t)[i]? = some s) (source : String) :
    (node source (route.levelsLeft maxDepth) t).value.held[i]? =
      some (node source (Route.levelsLeft maxDepth (s :: route)) s.target).value := by
  have hloop := isLoop_eq_false_of_mem_steps (List.mem_of_getElem? hs)
  rw [held_node hcharge hcontent hloop, List.getElem?_map, hs, Option.map_some]

/-- within the limit, parentheses are their content, with one level less left -/
theorem node_of_content? (hcharge : route.charge ≤ maxDepth) (hcontent : content? t = some c) (source : String) :
    node source (route.levelsLeft maxDepth) t = node source (Route.levelsLeft maxDepth (.toChild c :: route)) c := by
  obtain ⟨hk, hc⟩ := kind_of_content? hcontent
  rw [Route.levelsLeft_cons, Route.levelsLeft_of_le hcharge, node_succ, layer_parenthesized source _ _ hk hc]
  rfl

/-- what stands for a node is what lowering makes of it, unless the node before is past the limit; past the limit it is
a placeholder -/
theorem stands_lower (h : Stands tree.root (tree.lower source maxDepth).body path route t n) :
    (Route.charge route.tail ≤ maxDepth → n = (node source (route.levelsLeft maxDepth) t).value) ∧
      (maxDepth < route.charge → n.IsPlaceholder) := by
  induction h with
  | @statement i t n ht hn =>
    rw [getElem?_body_lower, ht, Option.map_some, Option.some.injEq] at hn
    subst hn
    refine ⟨fun _ => rfl, fun hpast => ?_⟩
    rw [show maxDepth = Route.levelsLeft maxDepth [.toChild t] from rfl, node_of_lt hpast]
    exact isPlaceholder_placeholder t
  | @held path route t n m i s _ hcontent hs hm ih =>
    have hwithin : route.charge ≤ maxDepth →
        m = (node source (Route.levelsLeft maxDepth (s :: route)) s.target).value := by
      intro hcharge
      rw [ih.1 (route.charge_tail_le.trans hcharge), getElem?_held_node hcharge hcontent hs, Option.some.injEq] at hm
      exact hm.symm
    refine ⟨hwithin, fun hpast => ?_⟩
    by_cases hcharge : route.charge ≤ maxDepth
    · rw [hwithin hcharge, node_of_lt hpast]
      exact isPlaceholder_placeholder s.target
    · -- a placeholder holds nothing
      rw [(ih.2 (Nat.lt_of_not_le hcharge)).held_eq_nil] at hm
      simp at hm
  | @content path route t c n _ hc ih =>
    have hwithin : route.charge ≤ maxDepth →
        n = (node source (Route.levelsLeft maxDepth (.toChild c :: route)) c).value := by
      intro hcharge
      rw [ih.1 (route.charge_tail_le.trans hcharge), node_of_content? hcharge hc]
    refine ⟨hwithin, fun hpast => ?_⟩
    by_cases hcharge : route.charge ≤ maxDepth
    · rw [hwithin hcharge, node_of_lt hpast]
      exact isPlaceholder_placeholder c
    · exact ih.2 (Nat.lt_of_not_le hcharge)

/-- what the steps lead to before the limit, and one step past it, is in the program -/
theorem exists_stands (h : Passed tree.root route t) (source : String) (hcharge : Route.charge route.tail ≤ maxDepth) :
    ∃ path n, Stands tree.root (tree.lower source maxDepth).body path route t n := by
  induction h with
  | @statement t h =>
    obtain ⟨i, hi⟩ := List.mem_iff_getElem?.1 h
    have hn : (tree.lower source maxDepth).body[i]? = some (node source maxDepth t).value := by
      rw [getElem?_body_lower, hi, Option.map_some]
    exact ⟨[i], _, .statement hi hn⟩
  | @step route t s _ hs ih =>
    have hcharge : route.charge ≤ maxDepth := hcharge
    have htail := route.charge_tail_le.trans hcharge
    obtain ⟨path, n, hn⟩ := ih htail
    cases hcontent : content? t with
    | some c =>
      rw [steps_of_content? hcontent, List.mem_singleton] at hs
      subst hs
      exact ⟨path, n, .content hn hcontent⟩
    | none =>
      obtain ⟨i, hi⟩ := List.mem_iff_getElem?.1 hs
      have hm := getElem?_held_node hcharge hcontent hi source
      rw [← (stands_lower hn).1 htail] at hm
      exact ⟨i :: path, _, .held hn hcontent hi hm⟩

/-- where a node of a lowered program comes from -/
inductive Provenance (tree : SyntaxTree) (source : String) (maxDepth : Nat) (path : List Nat) (n : Node) : Prop where
  /-- it is a node of the tree within the limit -/
  | lowered {route : Route} {t : Tree} (h : Stands tree.root (tree.lower source maxDepth).body path route t n)
    (hcharge : route.charge ≤ maxDepth) (hcontent : content? t = none)
    (hn : n = (node source (route.levelsLeft maxDepth) t).value)
  /-- it is the placeholder for the first node past the limit -/
  | replaced {route : Route} {t : Tree} (h : Stands tree.root (tree.lower source maxDepth).body path route t n)
    (htail : Route.charge route.tail ≤ maxDepth) (hcharge : maxDepth < route.charge) (hn : n = placeholder t)
  /-- it is the body of a loop -/
  | loopBody {route : Route} {outer : List Nat} {t b : Tree} {loop : Node}
    (h : Stands tree.root (tree.lower source maxDepth).body outer route t loop) (hpath : path = 0 :: outer)
    (hcharge : route.charge ≤ maxDepth) (hloop : t.kind.isLoop = true) (hbody : t.child? .body = some b)
    (hn : n = other b)

/-- what stands for a node comes from it, or from the content of its parentheses -/
theorem provenance_of_stands {route : Route} {t : Tree}
    (h : Stands tree.root (tree.lower source maxDepth).body path route t n)
    (htail : Route.charge route.tail ≤ maxDepth) : Provenance tree source maxDepth path n := by
  have hn := (stands_lower h).1 htail
  by_cases hcharge : route.charge ≤ maxDepth
  · cases hcontent : content? t with
    | none => exact .lowered h hcharge hcontent hn
    | some c =>
      have hsize : sizeOf c < sizeOf t :=
        sizeOf_lt_of_mem_namedChildren (List.mem_of_head? (kind_of_content? hcontent).2)
      exact provenance_of_stands (.content h hcontent) hcharge
  · have hpast := Nat.lt_of_not_le hcharge
    exact .replaced h htail hpast (hn.trans (node_of_lt hpast source t))
termination_by sizeOf t

/-- every node of a lowered program comes from the tree -/
theorem provenance_of_holdsAt (h : HoldsAt (tree.lower source maxDepth).body path n) :
    Provenance tree source maxDepth path n := by
  induction h with
  | @statement i n hn =>
    have hbody := hn
    rw [getElem?_body_lower, Option.map_eq_some_iff] at hbody
    obtain ⟨t, ht, -⟩ := hbody
    exact provenance_of_stands (.statement ht hn) (Nat.zero_le _)
  | @held path n i m _ hm ih =>
    cases ih with
    | @lowered route t h hcharge hcontent hn =>
      cases hloop : t.kind.isLoop with
      | true =>
        rw [hn, Route.levelsLeft_of_le hcharge, node_succ, held_layer_of_isLoop hloop] at hm
        cases hbody : t.child? .body with
        | none => simp [hbody] at hm
        | some b =>
          cases i with
          | zero => exact .loopBody h rfl hcharge hloop hbody (by simpa [hbody] using hm.symm)
          | succ i => simp [hbody] at hm
      | false =>
        have hheld := hm
        rw [hn, held_node hcharge hcontent hloop, List.getElem?_map, Option.map_eq_some_iff] at hheld
        obtain ⟨s, hs, -⟩ := hheld
        exact provenance_of_stands (.held h hcontent hs hm) hcharge
    | @replaced route t h htail hcharge hn =>
      rw [hn] at hm
      simp [placeholder, Node.held] at hm
    | loopBody h hpath hcharge hloop hbody hn =>
      rw [hn] at hm
      simp [other, Node.held] at hm

end Lowering

end ScriptTriage

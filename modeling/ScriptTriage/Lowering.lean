import ScriptTriage.Node
import ScriptTriage.Number.Literal
import ScriptTriage.Text.Escape
import ScriptTriage.Tree

/-
From concrete syntax trees to the program model. Comments disappear, parentheses are looked through, and kinds
without a shape of their own become `other`. The descent carries a depth and stops below a limit: what lies deeper
is replaced by a placeholder, and the program is marked as truncated.
-/

namespace ScriptTriage

/-- the kind of the placeholder for what lies below the depth limit -/
def depthLimitKind : String := "depth_limit"

/-- a lowered piece, and whether something in it was cut -/
structure Lowered (α : Type) where
  value : α
  truncated : Bool

namespace Lowered

variable {α β γ : Type}

/-- nothing was cut -/
def whole (a : α) : Lowered α := ⟨a, false⟩

def map (f : α → β) (a : Lowered α) : Lowered β := ⟨f a.value, a.truncated⟩

def map₂ (f : α → β → γ) (a : Lowered α) (b : Lowered β) : Lowered γ :=
  ⟨f a.value b.value, a.truncated || b.truncated⟩

/-- join the pieces of a list -/
def all (pieces : List (Lowered α)) : Lowered (List α) := ⟨pieces.map (·.value), pieces.any (·.truncated)⟩

/-- join a piece that may be missing -/
def optional : Option (Lowered α) → Lowered (Option α)
  | some a => a.map some
  | none => whole none

@[simp] theorem truncated_whole (a : α) : (whole a).truncated = false := rfl

@[simp] theorem truncated_map (f : α → β) (a : Lowered α) : (a.map f).truncated = a.truncated := rfl

@[simp] theorem truncated_map₂ (f : α → β → γ) (a : Lowered α) (b : Lowered β) :
    (map₂ f a b).truncated = (a.truncated || b.truncated) := rfl

@[simp] theorem truncated_all_map (f : β → Lowered α) (l : List β) :
    (all (l.map f)).truncated = l.any fun b => (f b).truncated := by
  simp [all, Function.comp_def]

@[simp] theorem truncated_optional_map (f : β → Lowered α) (b : Option β) :
    (optional (b.map f)).truncated = b.toList.any fun b => (f b).truncated := by
  cases b <;> simp [optional]

end Lowered

namespace Lowering

/-- a node that keeps nothing but its kind and place -/
def other (t : Tree) : Node := .other t.kind.name (some t.location)

/-- the placeholder for a node below the depth limit -/
def placeholder (t : Tree) : Node := .other depthLimitKind (some t.location)

/-- the name a node spells -/
def identifier (source : String) (t : Tree) : Identifier := ⟨t.text source, some t.location⟩

/-- the segments of a string literal: its named children, comments included -/
def segments (source : String) (t : Tree) : List Text.Segment :=
  (t.children.filter (·.named)).map fun c =>
    if c.kind = .escapeSequence then .escape (c.text source) else .fragment (c.text source)

def roleText (source : String) (t : Tree) (role : Role) : Option String := (t.child? role).map (·.text source)

def literalValue (source : String) (t : Tree) : LiteralValue :=
  match t.kind with
  | .string => .string (Text.decodeSegments (segments source t))
  | .number => .number (Number.valueOf (t.text source))
  | .trueLiteral => .boolean true
  | .falseLiteral => .boolean false
  | .regex => .regExp ((roleText source t .pattern).getD "") ((roleText source t .flags).getD "")
  | _ => .null

def literal (source : String) (t : Tree) : Node :=
  .literal ⟨literalValue source t, some (t.text source), some t.location⟩

/-- a loop keeps its kind and, as an opaque node, its body -/
def loop (kind : LoopKind) (t : Tree) : Node := .loop kind ((t.child? .body).map other) (some t.location)

/-- the word a declaration starts with -/
def declarationKind (source : String) (t : Tree) : DeclarationKind :=
  match roleText source t .kind with
  | some "let" => .letDeclaration
  | some "const" => .constDeclaration
  | _ => .varDeclaration

def assignmentOperator (source : String) (t : Tree) : Option String :=
  if t.kind = .assignmentExpression then some "=" else roleText source t .operator

/-- is this a loop over values? -/
def loopKindOfIn (source : String) (t : Tree) : LoopKind :=
  if roleText source t .operator = some "of" then .forOf else .forIn

def declarators (t : Tree) : List Tree := t.namedChildren.filter (·.kind = .variableDeclarator)

def parameters (t : Tree) : List Tree := ((t.child? .parameters).map (·.namedChildren)).getD []

/-- the body of a function, which has to be a block -/
def functionBody? (t : Tree) : Option Tree := (t.child? .body).filter (·.kind = .statementBlock)

/-- the statement of an `else` -/
def elseStatement? (t : Tree) : Option Tree :=
  if t.kind = .elseClause then t.namedChildren.head? else some t

def alternative? (t : Tree) : Option Tree := (t.child? .alternative).bind elseStatement?

/-- the arguments of a call; a template behind a callee is no argument list -/
def arguments (t : Tree) : List Tree :=
  (((t.child? .arguments).filter (·.kind = .arguments)).map (·.namedChildren)).getD []

/-- lower a declarator, by the lowering `below` of what stands in it -/
def declarator (below : Tree → Lowered Node) (t : Tree) : Lowered Declarator :=
  Lowered.map₂ (fun id init => .mk id init (some t.location))
    (Lowered.optional ((t.child? .name).map below)) (Lowered.optional ((t.child? .value).map below))

/-- lower a block, by the lowering `below` of its statements -/
def block (below : Tree → Lowered Node) (t : Tree) : Lowered Block :=
  (Lowered.all (t.namedChildren.map below)).map fun body => .mk body (some t.location)

/-- what stands in place of a node below the depth limit -/
def cut (t : Tree) : Lowered Node := ⟨placeholder t, true⟩

/-- lower a node, by the lowering `child` of nodes that cost one level and `grandchild` of nodes that cost two -/
def layer (source : String) (child grandchild : Tree → Lowered Node) (t : Tree) : Lowered Node :=
  let loc := some t.location
  let part (c : Option Tree) : Lowered (Option Node) := Lowered.optional (c.map child)
  match t.kind with
  | .variableDeclaration | .lexicalDeclaration =>
    (Lowered.all ((declarators t).map (declarator grandchild))).map
      fun declarators => .variableDeclaration (declarationKind source t) declarators loc
  | .functionDeclaration | .generatorFunctionDeclaration =>
    Lowered.map₂ (fun params body =>
      .functionDeclaration ((t.child? .name).map (identifier source)) params body loc)
      (Lowered.all ((parameters t).map child)) (Lowered.optional ((functionBody? t).map (block grandchild)))
  | .expressionStatement => (part t.namedChildren.head?).map fun e => .expressionStatement e loc
  | .ifStatement =>
    Lowered.map₂ (fun branches alternate => .ifStatement branches.1 branches.2 alternate loc)
      (Lowered.map₂ Prod.mk (part (t.child? .condition)) (part (t.child? .consequence)))
      (Lowered.optional ((alternative? t).map grandchild))
  | .forStatement => .whole (loop .forLoop t)
  | .forInStatement => .whole (loop (loopKindOfIn source t) t)
  | .whileStatement => .whole (loop .whileLoop t)
  | .doStatement => .whole (loop .doWhile t)
  | .returnStatement => (part t.namedChildren.head?).map fun e => .returnStatement e loc
  | .statementBlock => (block child t).map .block
  | .assignmentExpression | .augmentedAssignmentExpression =>
    Lowered.map₂ (fun left right => .assignment (assignmentOperator source t) left right loc)
      (part (t.child? .left)) (part (t.child? .right))
  | .callExpression =>
    Lowered.map₂ (fun callee arguments => .call callee arguments loc)
      (part (t.child? .function)) (Lowered.all ((arguments t).map grandchild))
  | .parenthesizedExpression =>
    match t.namedChildren.head? with
    | some inner => child inner
    | none => .whole (other t)
  | .identifier | .undefined => .whole (.identifier (identifier source t))
  | .string | .number | .trueLiteral | .falseLiteral | .null | .regex => .whole (literal source t)
  | _ => .whole (other t)

/-- lower a node, where `budget` more levels may be entered, this one included -/
def node (source : String) : (budget : Nat) → Tree → Lowered Node
  | 0 => cut
  | 1 => layer source cut cut
  | rest + 2 => layer source (node source (rest + 1)) (node source rest)

/-- a layer spends one level of the budget on some nodes and two on others; what cannot be paid is cut -/
theorem node_succ (source : String) (budget : Nat) (t : Tree) :
    node source (budget + 1) t = layer source (node source budget) (node source (budget - 1)) t := by
  cases budget <;> rfl

end Lowering

/-- lower the tree of a whole script; the root is at depth zero, and nodes deeper than `maxDepth` are cut -/
def SyntaxTree.lower (tree : SyntaxTree) (source : String) (maxDepth : Nat) : Program :=
  let body := Lowered.all (tree.root.namedChildren.map (Lowering.node source maxDepth))
  { body := body.value, hasErrors := tree.hasErrors, truncated := body.truncated }

end ScriptTriage

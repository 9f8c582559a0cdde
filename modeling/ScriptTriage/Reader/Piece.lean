import ScriptTriage.Reader.Kinds

/-
Pieces of a tree under construction. Until an equals sign or an arrow is seen, an array, an object or a list in
parentheses may be meant as an expression or as a pattern to be matched; a piece keeps both readings open, and the
pattern reading is taken by `Piece.toPattern?`.
-/

namespace ScriptTriage

mutual

/-- an expression read as a pattern: kinds change all the way down to the names that are bound -/
def Tree.toPattern : Tree → Tree
  | .node kind named extra role span children =>
    if kind = .array then .node .arrayPattern named extra role span (Tree.toPatterns children)
    else if kind = .object then .node .objectPattern named extra role span (Tree.toPatterns children)
    else if kind = .pair then .node .pairPattern named extra role span (Tree.toPatterns children)
    else if kind = .spreadElement then .node .restPattern named extra role span (Tree.toPatterns children)
    else if kind = .assignmentExpression then .node .assignmentPattern named extra role span children
    else if kind = .shorthand then .node .shorthandPattern named extra role span children
    else .node kind named extra role span children

def Tree.toPatterns : List Tree → List Tree
  | [] => []
  | t :: ts => Tree.toPattern t :: Tree.toPatterns ts

end

namespace Reader

/-- a tree with the readings it allows -/
structure Piece where
  tree : Tree
  asExpression : Bool := true
  asPattern : Bool := false
deriving Inhabited

namespace Piece

def kind (p : Piece) : Kind := p.tree.kind

def extra (p : Piece) : Bool := p.tree.extra

def ofComment (t : Tree) : Piece := { tree := t }

/-- the pattern reading, if there is one -/
def toPattern? (p : Piece) : Option Piece :=
  if p.asPattern then some { tree := p.tree.toPattern, asPattern := true } else none

/-- may it stand on the left of `=`? Patterns are read as such, and parentheses are allowed around a target. -/
def toTarget? (p : Piece) : Option Piece :=
  if p.kind = .parenthesizedExpression && p.asExpression then some p
  else if p.kind = .assignmentExpression || p.kind = .spreadElement then none
  else p.toPattern?

/-- may it stand on the left of an operator such as `+=`? -/
def isPlainTarget (p : Piece) : Bool :=
  p.asExpression && (p.kind = .identifier || p.kind = .memberExpression || p.kind = .subscriptExpression ||
    p.kind = .parenthesizedExpression)

end Piece

/-- the pieces that are neither comments nor marks -/
def items (children : List Piece) : List Piece := children.filter fun p => p.tree.named && !p.extra

/-- the readings of a node with these children, as an expression and as a pattern; nothing if it has neither -/
def readings (kind : Kind) (children : List Piece) : Option (Bool × Bool) :=
  let parts := items children
  let expression := parts.all (·.asExpression)
  let pattern := parts.all (·.asPattern)
  if kind = .array || kind = .object || kind = .arguments then some (expression, pattern)
  else if kind = .pair then
    match parts.getLast? with
    | some value => if parts.dropLast.all (·.asExpression) then some (value.asExpression, value.asPattern) else none
    | none => none
  else if kind = .spreadElement then
    some (expression, pattern && parts.all fun p => p.kind ≠ .assignmentExpression && p.kind ≠ .spreadElement)
  else if kind = .assignmentExpression then
    match parts with
    | left :: rest => if rest.all (·.asExpression) then some (true, left.asPattern) else none
    | [] => none
  else if !expression then none
  else if kind = .objectAssignmentPattern then some (false, true)
  else some (true, kind = .memberExpression || kind = .subscriptExpression)

/-- a node over its children; comments at either end stay outside -/
structure Closed where
  before : List Piece
  node : Piece
  behind : List Piece

/-- make a node of the pieces of a frame, the last piece first -/
def closeFrame? (kind : Kind) (frame : List Piece) : Option Closed :=
  let behind := frame.takeWhile (·.extra)
  let core := (frame.dropWhile (·.extra)).reverse
  let before := core.takeWhile (·.extra)
  let children := core.dropWhile (·.extra)
  match children.head?, children.getLast?, readings kind children with
  | some first, some last, some (asExpression, asPattern) =>
    let span : Span := ⟨first.tree.span.start, last.tree.span.stop⟩
    let tree : Tree := .node kind true false none span (children.map (·.tree))
    some ⟨before, { tree, asExpression, asPattern }, behind⟩
  | _, _, _ => none

end Reader

end ScriptTriage

import ScriptTriage.Location
import ScriptTriage.Number.Binary64

/-
The program model that the walk reads. Only the shapes the walk asks about have a constructor; every other shape is
`other` and keeps the name of its kind. Parts and locations may be missing, so that a broken script gives a program
with holes and not a failure.
-/

namespace ScriptTriage

open ScriptTriage.Number (Binary64)

/-- the word a declaration starts with -/
inductive DeclarationKind where
  | varDeclaration
  | letDeclaration
  | constDeclaration
deriving DecidableEq, Repr, Inhabited

inductive LoopKind where
  | forLoop
  | forIn
  | forOf
  | whileLoop
  | doWhile
deriving DecidableEq, Repr, Inhabited

inductive LiteralValue where
  | string (value : String)
  | number (value : Binary64)
  | boolean (value : Bool)
  | null
  | regExp (pattern flags : String)
deriving DecidableEq, Repr, Inhabited

/-- a literal: its value, and its text in the source -/
structure Literal where
  value : LiteralValue
  raw : Option String
  loc : Option Location
deriving DecidableEq, Repr, Inhabited

structure Identifier where
  name : String
  loc : Option Location
deriving DecidableEq, Repr, Inhabited

mutual

/-- a piece of program -/
inductive Node where
  | variableDeclaration (kind : DeclarationKind) (declarators : List Declarator) (loc : Option Location)
  | functionDeclaration (id : Option Identifier) (params : List Node) (body : Option Block) (loc : Option Location)
  | expressionStatement (expression : Option Node) (loc : Option Location)
  | ifStatement (test consequent alternate : Option Node) (loc : Option Location)
  | loop (kind : LoopKind) (body : Option Node) (loc : Option Location)
  | returnStatement (argument : Option Node) (loc : Option Location)
  | block (block : Block)
  | assignment (operator : Option String) (left right : Option Node) (loc : Option Location)
  | call (callee : Option Node) (arguments : List Node) (loc : Option Location)
  | identifier (identifier : Identifier)
  | literal (literal : Literal)
  | other (kind : String) (loc : Option Location)

/-- one `target = value` of a declaration -/
inductive Declarator where
  | mk (id init : Option Node) (loc : Option Location)

/-- statements in braces -/
inductive Block where
  | mk (body : List Node) (loc : Option Location)

end

instance : Inhabited Node := ⟨.other "" none⟩

def Declarator.id : Declarator → Option Node
  | .mk id _ _ => id

def Declarator.init : Declarator → Option Node
  | .mk _ init _ => init

def Declarator.loc : Declarator → Option Location
  | .mk _ _ loc => loc

def Block.body : Block → List Node
  | .mk body _ => body

def Block.loc : Block → Option Location
  | .mk _ loc => loc

namespace Node

def loc : Node → Option Location
  | .variableDeclaration _ _ loc => loc
  | .functionDeclaration _ _ _ loc => loc
  | .expressionStatement _ loc => loc
  | .ifStatement _ _ _ loc => loc
  | .loop _ _ loc => loc
  | .returnStatement _ loc => loc
  | .block b => b.loc
  | .assignment _ _ _ loc => loc
  | .call _ _ loc => loc
  | .identifier i => i.loc
  | .literal l => l.loc
  | .other _ loc => loc

/-- the name of the node's kind; `other` nodes answer with the name they keep -/
def kindName : Node → String
  | .variableDeclaration .. => "VariableDeclaration"
  | .functionDeclaration .. => "FunctionDeclaration"
  | .expressionStatement .. => "ExpressionStatement"
  | .ifStatement .. => "IfStatement"
  | .loop .forLoop .. => "ForStatement"
  | .loop .forIn .. => "ForInStatement"
  | .loop .forOf .. => "ForOfStatement"
  | .loop .whileLoop .. => "WhileStatement"
  | .loop .doWhile .. => "DoWhileStatement"
  | .returnStatement .. => "ReturnStatement"
  | .block .. => "BlockStatement"
  | .assignment .. => "AssignmentExpression"
  | .call .. => "CallExpression"
  | .identifier .. => "Identifier"
  | .literal .. => "Literal"
  | .other kind _ => kind

end Node

/-- a whole script: its statements, whether the reader had to skip something, and whether nesting was cut -/
structure Program where
  body : List Node
  hasErrors : Bool
  truncated : Bool

end ScriptTriage

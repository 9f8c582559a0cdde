import ScriptTriage.Location

/-
Concrete syntax trees. A node has a kind, a span of source and children in source order; a child may carry the label
of the role it plays in its parent. Tokens without a name of their own (operators, brackets, words) are unnamed, and
comments are extras: they may stand among the children of any node.
-/

namespace ScriptTriage

/-- the kinds that lowering knows by name; all others are told apart by their grammar name only -/
inductive Kind where
  | variableDeclaration
  | lexicalDeclaration
  | variableDeclarator
  | functionDeclaration
  | generatorFunctionDeclaration
  | expressionStatement
  | ifStatement
  | elseClause
  | forStatement
  | forInStatement
  | whileStatement
  | doStatement
  | returnStatement
  | statementBlock
  | assignmentExpression
  | augmentedAssignmentExpression
  | callExpression
  | arguments
  | parenthesizedExpression
  | identifier
  | undefined
  | string
  | escapeSequence
  | number
  | trueLiteral
  | falseLiteral
  | null
  | regex
  | other (name : String)
deriving DecidableEq, Repr, Inhabited

def Kind.name : Kind → String
  | .variableDeclaration => "variable_declaration"
  | .lexicalDeclaration => "lexical_declaration"
  | .variableDeclarator => "variable_declarator"
  | .functionDeclaration => "function_declaration"
  | .generatorFunctionDeclaration => "generator_function_declaration"
  | .expressionStatement => "expression_statement"
  | .ifStatement => "if_statement"
  | .elseClause => "else_clause"
  | .forStatement => "for_statement"
  | .forInStatement => "for_in_statement"
  | .whileStatement => "while_statement"
  | .doStatement => "do_statement"
  | .returnStatement => "return_statement"
  | .statementBlock => "statement_block"
  | .assignmentExpression => "assignment_expression"
  | .augmentedAssignmentExpression => "augmented_assignment_expression"
  | .callExpression => "call_expression"
  | .arguments => "arguments"
  | .parenthesizedExpression => "parenthesized_expression"
  | .identifier => "identifier"
  | .undefined => "undefined"
  | .string => "string"
  | .escapeSequence => "escape_sequence"
  | .number => "number"
  | .trueLiteral => "true"
  | .falseLiteral => "false"
  | .null => "null"
  | .regex => "regex"
  | .other name => name

/-- the roles by which lowering asks for a child -/
inductive Role where
  | name
  | value
  | kind
  | operator
  | parameters
  | body
  | condition
  | consequence
  | alternative
  | left
  | right
  | function
  | arguments
  | pattern
  | flags
deriving DecidableEq, Repr, Inhabited

inductive Tree where
  | node (kind : Kind) (named extra : Bool) (role : Option Role) (span : Span) (children : List Tree)
deriving Inhabited

namespace Tree

def kind : Tree → Kind
  | .node kind _ _ _ _ _ => kind

/-- has the node a name of its own in the grammar? -/
def named : Tree → Bool
  | .node _ named _ _ _ _ => named

/-- is it a comment? -/
def extra : Tree → Bool
  | .node _ _ extra _ _ _ => extra

def role : Tree → Option Role
  | .node _ _ _ role _ _ => role

def span : Tree → Span
  | .node _ _ _ _ span _ => span

def children : Tree → List Tree
  | .node _ _ _ _ _ children => children

def withRole (role : Role) : Tree → Tree
  | .node kind named extra _ span children => .node kind named extra (some role) span children

def withKind (kind : Kind) : Tree → Tree
  | .node _ named extra role span children => .node kind named extra role span children

/-- the named children without the comments -/
def namedChildren (t : Tree) : List Tree := t.children.filter fun c => c.named && !c.extra

def child? (t : Tree) (role : Role) : Option Tree := t.children.find? fun c => c.role == some role

def location (t : Tree) : Location := t.span.location

def text (source : String) (t : Tree) : String :=
  String.Pos.Raw.extract source ⟨t.span.start.offset⟩ ⟨t.span.stop.offset⟩

end Tree

/-- the tree of a whole script, and whether the reader had to skip something to get it -/
structure SyntaxTree where
  root : Tree
  hasErrors : Bool
deriving Inhabited

end ScriptTriage

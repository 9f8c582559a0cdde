import ScriptTriage.Reader.Piece
import ScriptTriage.Reader.Token

/-
Goals: what the reader still has to recognise. A goal is replaced by the goals of one of its forms, chosen by the
next token, until only tokens are left; building goals gather what was read into nodes. Where one token does not
decide, `either` tries a second list of goals if the first one leads nowhere.
-/

namespace ScriptTriage.Reader

/-- where an expression stands -/
structure Context where
  /-- it may be ended by an implied semicolon -/
  semicolon : Bool := false
  /-- `in` is not an operator here: it belongs to the head of a loop -/
  noIn : Bool := false
deriving DecidableEq, Repr, Inhabited

/-- inside brackets of any kind -/
def Context.nested : Context := {}

/-- right in a statement -/
def Context.statement : Context := { semicolon := true }

/-- what a block belongs to, which decides what may follow it -/
inductive BlockUse where
  /-- a statement: if it is empty, it could still be an object -/
  | statement
  /-- a function at a place where an expression could stand -/
  | operand
  /-- anything else: nothing but the next statement or clause follows -/
  | plain
deriving DecidableEq, Repr

/-- goals that gather pieces into nodes or take one certain token -/
inductive BuildGoal where
  /-- start a node -/
  | start
  /-- end the node with this kind -/
  | close (kind : Kind)
  /-- the last piece becomes the first child of a new node -/
  | wrap
  /-- the last piece has this role -/
  | role (r : Role)
  /-- this operator or bracket -/
  | mark (text : String)
  /-- this word -/
  | word (text : String)
  /-- any word, as a node of this kind -/
  | name (kind : Kind)
  /-- the last piece is meant as a pattern -/
  | pattern
  /-- the last piece is meant as something to assign to -/
  | target
  /-- a semicolon that is not written, if one can be implied here -/
  | impliedSemicolon (operator : Bool)
  /-- a semicolon that is a statement -/
  | emptyStatement

inductive ExpressionGoal where
  /-- one expression -/
  | expression (c : Context)
  /-- one expression, or several with commas between them -/
  | expressions (c : Context)
  /-- the commas behind an expression -/
  | comma (c : Context)
  | moreComma (c : Context)
  /-- the start of an expression up to its first binary operator or suffix -/
  | operand (c : Context)
  /-- suffixes and operators of at least this strength behind an operand -/
  | tail (c : Context) (strength : Nat)
  /-- what may stand behind `yield` -/
  | yieldRest (c : Context)
  /-- what is created by `new` -/
  | newTarget (c : Context)
  | memberTail (c : Context)
  | newArguments (c : Context)
  /-- behind a dot -/
  | property
  /-- `?.` and what it links to -/
  | optionalLink
  /-- the first piece is the function that is called -/
  | linkedFunction
  /-- this operator, at a place where an operator may stand -/
  | operatorMark (text : String)
  /-- the list in parentheses that may turn out to be parameters -/
  | parenItems
  | parenNext
  | parenEnd (c : Context)
  /-- behind `async` and a list in parentheses, which are a call or the head of an arrow function -/
  | asyncEnd (c : Context)
  | arrowBody (c : Context)
  | arguments
  | argumentItems
  | argumentNext
  | arrayItems
  | arrayNext
  /-- a name that may be missing -/
  | optionalName
  | parameters
  | parameterItems
  | parameterNext

/-- goals inside objects and classes -/
inductive MemberGoal where
  | object
  | objectItems
  | objectNext
  | objectItem
  /-- the words and the star in front of a member's name, which stand in a fixed order -/
  | modifiers (inClass : Bool) (ranks : List (List String))
  /-- the name of a member -/
  | key
  /-- behind the name of an object's member -/
  | afterObjectKey
  | decorators
  | decoratorTail
  | className (required : Bool)
  | heritage
  | classBody
  | classItems
  | classItem
  /-- behind the name of a class's member -/
  | afterClassKey

/-- goals inside literals and markup, where characters count and not tokens -/
inductive LiteralGoal where
  | string
  | stringParts (quote : Char)
  | template
  | templateParts
  | regex
  | regexRest
  /-- an element, from its opening tag to its closing one -/
  | element
  | elementName
  | elementNameTail
  | closingName
  | attributes
  | attributeName
  | attributeValue
  | attributeParts (quote : Char)
  /-- behind a brace in markup -/
  | braceRest
  | children

inductive StatementGoal where
  | statement
  /-- statements up to a closing brace; in a `switch` also up to the next case -/
  | statements (inSwitch : Bool)
  | semicolon (operator : Bool)
  | optionalSemicolon
  | block (use : BlockUse)
  | blockEnd (use : BlockUse)
  /-- behind a block that is not meant as an object -/
  | blockSettled
  | condition
  | declarators (c : Context)
  | moreDeclarators (c : Context)
  | initializer (c : Context)
  /-- a name or a pattern that is declared -/
  | bindingTarget
  | elseBranch
  /-- behind a declaration that could also be an expression of this kind -/
  | declarationEnd (asExpression : Kind)
  | forHead
  | forAwaitHead
  | forCondition
  | forIncrement
  | loopOperator (semicolon : Bool)
  | returnRest
  | jumpLabel
  | catchClause
  | catchParameter
  | finallyClause
  | cases
  | importClause
  | importMore
  | importNames
  | importAttribute
  /-- a name or a string by which a module exports something -/
  | moduleName
  | moduleAlias
  | specifiers
  | specifierNext
  | exportRest
  | exportSource
  | exportDefault

/-- what is still to be recognised -/
inductive Goal where
  | build (goal : BuildGoal)
  | expression (goal : ExpressionGoal)
  | member (goal : MemberGoal)
  | literal (goal : LiteralGoal)
  | statement (goal : StatementGoal)
  /-- try the first list, and the second one if that leads nowhere before the next `commit` -/
  | either (first second : List Goal)
  /-- the choice made last is settled -/
  | commit

namespace Goal

def start : Goal := .build .start
def close (kind : Kind) : Goal := .build (.close kind)
def wrap : Goal := .build .wrap
def role (r : Role) : Goal := .build (.role r)
def mark (text : String) : Goal := .build (.mark text)
def word (text : String) : Goal := .build (.word text)
def name (kind : Kind) : Goal := .build (.name kind)
def pattern : Goal := .build .pattern
def target : Goal := .build .target

/-- a node made of these parts -/
def node (kind : Kind) (parts : List Goal) : List Goal := start :: (parts ++ [close kind])

/-- a node that starts with the last piece and goes on with these parts -/
def suffix (kind : Kind) (parts : List Goal) : List Goal := wrap :: (parts ++ [close kind])

end Goal

/-- the state of the reader: the place, whether comments in the manner of HTML are possible there, the goals, and the
pieces of all nodes that are not finished yet, the innermost node and the last piece first -/
structure State where
  cursor : Cursor
  markup : Bool
  goals : List Goal
  frames : List (List Piece)

namespace State

def push (s : State) (goals : List Goal) : State := { s with goals := goals ++ s.goals }

/-- put pieces at the end of the innermost node, the last one first -/
def gather (s : State) (pieces : List Piece) : State :=
  match s.frames with
  | frame :: frames => { s with frames := (pieces ++ frame) :: frames }
  | [] => { s with frames := [pieces] }

/-- the pieces of the innermost node, the last one first -/
def frame (s : State) : List Piece := s.frames.headD []

/-- the last piece that is no comment -/
def last? (s : State) : Option Piece := s.frame.find? fun p => !p.extra

/-- change the last piece that is no comment -/
def changeLast (s : State) (f : Piece → Piece) : State :=
  match s.frames with
  | frame :: frames =>
    let comments := frame.takeWhile (·.extra)
    match frame.dropWhile (·.extra) with
    | p :: rest => { s with frames := (comments ++ f p :: rest) :: frames }
    | [] => s
  | [] => s

/-- change the tree of the innermost node's first piece -/
def changeFirst (s : State) (f : Tree → Tree) : State :=
  match s.frames with
  | frame :: frames =>
    match frame.reverse with
    | first :: rest => { s with frames := ({ first with tree := f first.tree } :: rest).reverse :: frames }
    | [] => s
  | [] => s

/-- look at the next token; comments in front of it are read -/
def peek (s : State) (e : Expectation) : Token × State :=
  let ahead := s.cursor.next e s.markup
  let s := s.gather (ahead.comments.map .ofComment)
  (ahead.token, { s with cursor := ahead.base, markup := s.markup && !e.semicolon && !e.operator })

def peekBehind (t : Token) (e : Expectation) : Token := (t.stop.next e true).token

/-- take a piece that ends at a place -/
def take (s : State) (p : Piece) (stop : Cursor) : State :=
  { s.gather [p] with cursor := stop, markup := true }

/-- take a token as a node without a name -/
def shiftMark (s : State) (t : Token) : State :=
  s.take { tree := .node (.other t.text) false false none t.span [] } t.stop

/-- take a token as a node of this kind -/
def shift (s : State) (kind : Kind) (t : Token) : State :=
  s.take { tree := .node kind true false none t.span [],
           asPattern := kind = .identifier || kind = .undefined || kind = .shorthand } t.stop

/-- take a token of `n` characters right here as a node of this kind -/
def shiftLength (s : State) (kind : Kind) (named : Bool) (n : Nat) : State :=
  let stop := s.cursor.advance n
  s.take { tree := .node kind named false none ⟨s.cursor.point, stop.point⟩ [] } stop

/-- start a node whose first child is the last piece -/
def wrap (s : State) : Option State :=
  match s.frames with
  | frame :: frames =>
    let comments := frame.takeWhile (·.extra)
    match frame.dropWhile (·.extra) with
    | p :: rest => some { s with frames := (comments ++ [p]) :: rest :: frames }
    | [] => none
  | [] => none

def close (s : State) (kind : Kind) : Option State :=
  match s.frames with
  | frame :: frames =>
    (closeFrame? kind frame).map fun c =>
      ({ s with frames }).gather (c.behind ++ c.node :: c.before.reverse)
  | [] => none

end State

def BuildGoal.step (s : State) : BuildGoal → Option State
  | .start => some { s with frames := [] :: s.frames }
  | .close kind => s.close kind
  | .wrap => s.wrap
  | .role r => some (s.changeLast fun p => { p with tree := p.tree.withRole r })
  | .mark text =>
    let (t, s) := s.peek .plain
    if t.isMark text then some (s.shiftMark t) else none
  | .word text =>
    let (t, s) := s.peek .plain
    if t.isWord text then some (s.shiftMark t) else none
  | .name kind =>
    let (t, s) := s.peek .plain
    if t.sort = .word then some (s.shift kind t) else none
  | .pattern =>
    (s.last?.bind Piece.toPattern?).map fun p => s.changeLast fun _ => p
  | .target =>
    (s.last?.bind Piece.toTarget?).map fun p => s.changeLast fun _ => p
  | .impliedSemicolon operator =>
    let (t, s) := s.peek (.mayEnd operator)
    some (if t.sort = .impliedSemicolon then s.shiftMark t else s)
  | .emptyStatement =>
    let (t, s) := s.peek .plain
    if t.isMark ";" then some (s.shift (.other "empty_statement") t) else none

end ScriptTriage.Reader

import ScriptTriage.Reader.Goal

/-
Expressions. An operand is read first, then the suffixes and operators that bind at least as strongly as the place
asks for. An assignment or an arrow takes the operand in front of it whatever stands before that, so
`a || b = c` assigns to `b`.
-/

namespace ScriptTriage.Reader

/-- how strongly a binary operator binds, and whether it groups to the right -/
def binaryStrength? : String → Option (Nat × Bool)
  | "??" => some (1, false)
  | "||" => some (2, false)
  | "&&" => some (3, false)
  | "|" => some (4, false)
  | "^" => some (5, false)
  | "&" => some (6, false)
  | "==" | "!=" | "===" | "!==" => some (7, false)
  | "<" | "<=" | ">" | ">=" | "in" | "instanceof" => some (8, false)
  | "<<" | ">>" | ">>>" => some (9, false)
  | "+" | "-" => some (10, false)
  | "*" | "/" | "%" => some (11, false)
  | "**" => some (12, true)
  | _ => none

def conditionalStrength : Nat := 1

def unaryStrength : Nat := 13

def updateStrength : Nat := 14

/-- the strength of a call; links to members bind stronger still -/
def callStrength : Nat := 15

/-- the operators that assign and compute -/
def augmentedOperators : List String :=
  ["+=", "-=", "*=", "/=", "%=", "^=", "&=", "|=", ">>=", ">>>=", "<<=", "**=", "&&=", "||=", "??="]

def parameterGoals : List Goal := Goal.node .formalParameters [.mark "(", .expression .parameterItems]

/-- the goals of a function whose first words are still to be read -/
def functionGoals (isAsync isGenerator : Bool) (name : Goal) (use : BlockUse) (kind : Kind) : List Goal :=
  Goal.node kind ((if isAsync then [.word "async"] else []) ++ .word "function" ::
    (if isGenerator then [.mark "*"] else []) ++ [name, .expression .parameters, .role .parameters,
      .statement (.block use), .role .body])

/-- is the function whose word `function` is this token a generator? -/
def isGenerator (t : Token) : Bool := (State.peekBehind t .plain).isMark "*"

def functionExpressionGoals (isAsync : Bool) (t : Token) : List Goal :=
  let generator := isGenerator t
  functionGoals isAsync generator (.expression .optionalName) .operand
    (if generator then .generatorFunction else .functionExpression)

def unaryGoals (kind : Kind) (operator : Goal) (c : Context) (strength : Nat) : List Goal :=
  Goal.node kind [operator, .expression (.operand c), .expression (.tail c strength)]

/-- an arrow function with one bare parameter, behind `async` -/
def asyncArrowGoals (c : Context) : List Goal :=
  Goal.node .arrowFunction [.word "async", .name .identifier, .mark "=>", .expression (.arrowBody c)]

def asyncOperand (c : Context) (s : State) (t : Token) : State :=
  let behind := State.peekBehind t { Expectation.afterOperand c.semicolon with operand := true }
  if behind.isWord "function" then s.push (functionExpressionGoals true behind)
  else if behind.isMark "(" then
    s.push [.start, .name .identifier, .expression .arguments, .expression (.asyncEnd c)]
  else if behind.sort = .word && (State.peekBehind behind .plain).isMark "=>" then s.push (asyncArrowGoals c)
  else s.shift .identifier t

def newOperand (c : Context) (s : State) (t : Token) : State :=
  if (State.peekBehind t .plain).isMark "." then
    s.push (Goal.node .metaProperty [.word "new", .mark ".", .word "target"])
  else
    s.push (Goal.node .newExpression
      [.word "new", .expression (.newTarget c), .expression (.newArguments c)])

def importOperand (s : State) (t : Token) : Option State :=
  let behind := State.peekBehind t .plain
  if behind.isMark "(" then some (s.shift (.other "import") t)
  else if behind.isMark "." then
    if (State.peekBehind behind .plain).isWord "meta" then
      some (s.push (Goal.node .metaProperty [.word "import", .mark ".", .word "meta"]))
    else some (s.shift (.other "import") t)
  else none

def wordOperand (c : Context) (s : State) (t : Token) : Option State :=
  match t.text with
  | "function" => some (s.push (functionExpressionGoals false t))
  | "async" => some (asyncOperand c s t)
  | "class" => some (s.push (Goal.node .classExpression
      [.word "class", .member (.className false), .member .heritage, .member .classBody]))
  | "new" => some (newOperand c s t)
  | "import" => importOperand s t
  | "true" => some (s.shift .trueLiteral t)
  | "false" => some (s.shift .falseLiteral t)
  | "null" => some (s.shift .null t)
  | "undefined" => some (s.shift .undefined t)
  | "this" | "super" => some (s.shift (.other t.text) t)
  | "await" => some (s.push (unaryGoals (.other "await_expression") (.word "await") c unaryStrength))
  | "yield" =>
    some (s.push (Goal.node (.other "yield_expression") [.word "yield", .expression (.yieldRest c)]))
  | "typeof" | "void" | "delete" => some (s.push (unaryGoals .unary (.word t.text) c unaryStrength))
  | _ => some (s.shift .identifier t)

/-- an operand that starts with an operator or bracket -/
def markOperand (c : Context) (s : State) (t : Token) : Option State :=
  match t.text with
  | "(" => some (s.push [.start, .mark "(", .expression .parenItems, .expression (.parenEnd c)])
  | "[" => some (s.push (Goal.node .array [.mark "[", .expression .arrayItems]))
  | "\x7b" => some (s.push [.member .object])
  | "\x60" => some (s.push [.literal .template])
  | "'" | "\"" => some (s.push [.literal .string])
  | "/" => some (s.push [.literal .regex])
  | "<" => some (s.push [.literal .element])
  | "@" => some (s.push (Goal.node .classExpression
      [.member .decorators, .word "class", .member (.className false), .member .heritage, .member .classBody]))
  | "!" | "~" | "+" | "-" => some (s.push (unaryGoals .unary (.mark t.text) c unaryStrength))
  | "++" | "--" => some (s.push (unaryGoals .update (.mark t.text) c callStrength))
  | _ => none

def operandStep (c : Context) (s : State) : Option State :=
  let (t, s) := s.peek .plain
  match t.sort with
  | .number => some (s.shift .number t)
  | .word => wordOperand c s t
  | .privateName =>
    if (State.peekBehind t (.afterOperand c.semicolon)).isWord "in" then some (s.shift .privateProperty t) else none
  | .punctuator => markOperand c s t
  | _ => none

/-- a link to a member behind an operand, if the token starts one; `next` goes on behind it -/
def linkGoals? (t : Token) (next : Goal) : Option (List Goal) :=
  match t.text with
  | "." => some (Goal.suffix .memberExpression [.mark ".", .expression .property] ++ [next])
  | "[" => some (Goal.suffix .subscriptExpression [.mark "[", .expression (.expressions .nested), .mark "]"] ++ [next])
  | "?." => some [.wrap, .expression .optionalLink, next]
  | "\x60" => some (Goal.suffix .callExpression
      [.role .function, .literal .template, .role .arguments] ++ [next])
  | _ => none

def binaryGoals (c : Context) (operator : Goal) (strength : Nat) (right : Bool) : List Goal :=
  Goal.suffix .binary
    [operator, .expression (.operand c), .expression (.tail c (if right then strength else strength + 1))]

def assignmentStep (c : Context) (next : Goal) (s : State) : Option State :=
  (s.last?.bind Piece.toTarget?).map fun p =>
    (s.changeLast fun _ => p).push (Goal.suffix .assignmentExpression
      [.role .left, .mark "=", .expression (.expression c), .role .right] ++ [next])

/-- an assignment with an operator behind its target -/
def augmentedStep (c : Context) (operator : String) (next : Goal) (s : State) : Option State :=
  match s.last? with
  | some p =>
    if p.isPlainTarget then
      some (s.push (Goal.suffix .augmentedAssignmentExpression
        [.role .left, .expression (.operatorMark operator), .role .operator, .expression (.expression c), .role .right]
          ++ [next]))
    else none
  | none => none

/-- an arrow behind a bare parameter -/
def arrowStep (c : Context) (next : Goal) (s : State) : Option State :=
  match s.last? with
  | some p =>
    if p.kind = .identifier then
      some (s.push (Goal.suffix .arrowFunction [.mark "=>", .expression (.arrowBody c)] ++ [next]))
    else none
  | none => none

/-- suffixes and operators behind an operand -/
def tailStep (c : Context) (least : Nat) (s : State) : Option State :=
  let (t, s) := s.peek (.afterOperand c.semicolon)
  let next : Goal := .expression (.tail c least)
  match t.sort with
  | .question =>
    if least ≤ conditionalStrength then
      s.wrap.map fun s => (s.shiftMark t).push
        [.expression (.expression .nested), .mark ":", .expression (.operand c),
          .expression (.tail c conditionalStrength), .close .ternary, next]
    else some s
  | .word =>
    if t.text = "in" && c.noIn then some s
    else
      match binaryStrength? t.text with
      | some (strength, right) =>
        some (if least ≤ strength then s.push (binaryGoals c (.word t.text) strength right ++ [next]) else s)
      | none => some s
  | .punctuator =>
    match linkGoals? t next with
    | some goals => some (s.push goals)
    | none =>
      if t.text = "(" then
        some (s.push (Goal.suffix .callExpression
          [.role .function, .expression .arguments, .role .arguments] ++ [next]))
      else if t.text = "++" || t.text = "--" then
        some (if least ≤ updateStrength then
          s.push (Goal.suffix .update [.mark t.text] ++ [next]) else s)
      else if t.text = "=" then assignmentStep c next s
      else if t.text = "=>" then arrowStep c next s
      else if augmentedOperators.contains t.text then augmentedStep c t.text next s
      else
        match binaryStrength? t.text with
        | some (strength, right) =>
          some (if least ≤ strength then
            s.push (binaryGoals c (.expression (.operatorMark t.text)) strength right ++ [next]) else s)
        | none => some s
  | _ => some s

def startsExpression (t : Token) : Bool :=
  match t.sort with
  | .number | .privateName => true
  | .word => t.text ≠ "in" && t.text ≠ "instanceof"
  | .punctuator =>
    ["(", "[", "\x7b", "\x60", "'", "\"", "/", "<", "@", "!", "~", "+", "-", "++", "--"].contains t.text
  | _ => false

/-- the comma and the closing bracket of a list; `again` reads the next item -/
def listNext (bracket : String) (again : Goal) (s : State) : Option State :=
  let (t, s) := s.peek (.afterOperand false)
  if t.isMark "," then some ((s.shiftMark t).push [again])
  else if t.isMark bracket then some (s.shiftMark t)
  else none

def spreadGoals : List Goal := Goal.node .spreadElement [.mark "...", .expression (.expression .nested)]

/-- an item of a list in brackets in which items may be missing -/
def sparseItem (bracket : String) (again next : Goal) (s : State) : Option State :=
  let (t, s) := s.peek .plain
  if t.isMark bracket then some (s.shiftMark t)
  else if t.isMark "," then some ((s.shiftMark t).push [again])
  else if t.isMark "..." then some (s.push (spreadGoals ++ [next]))
  else some (s.push [.expression (.expression .nested), next])

/-- the pieces in parentheses as one expression: several of them become a sequence -/
def groupSequence (frame : List Piece) : Option (List Piece) :=
  match frame with
  | closing :: inner =>
    if 1 < (items inner).length then
      let opening := inner.getLast?.toList
      (closeFrame? .sequence inner.dropLast).map fun c =>
        closing :: (c.behind ++ c.node :: c.before.reverse ++ opening)
    else some frame
  | [] => none

/-- the pieces in parentheses as parameters -/
def groupParameters (frame : List Piece) : Option (List Piece) :=
  frame.mapM fun p => if p.tree.named && !p.extra then p.toPattern? else some p

/-- is it a list in parentheses that can be an expression: something in it, nothing spread, no comma at the end? -/
def isGroup (frame : List Piece) : Bool :=
  let parts := items frame
  !parts.isEmpty && parts.all (fun p => p.asExpression && p.kind ≠ .spreadElement) &&
    ((frame.drop 1).find? fun p => !p.extra).all fun p => p.tree.named

/-- the end of a list in parentheses: parameters if an arrow follows, else an expression -/
def parenEndStep (c : Context) (s : State) : Option State :=
  let (t, s) := s.peek .plain
  if !t.isMark ")" then none
  else
    let s := s.shiftMark t
    let group := isGroup s.frame
    let (behind, _) := s.peek (if group then .afterOperand c.semicolon else { operand := false })
    if behind.isMark "=>" then
      (groupParameters s.frame).map fun frame =>
        { s with frames := frame :: s.frames.drop 1 }.push (.close .formalParameters :: .role .parameters ::
          Goal.suffix .arrowFunction [.mark "=>", .expression (.arrowBody c)])
    else if group then
      (groupSequence s.frame).map fun frame =>
        { s with frames := frame :: s.frames.drop 1 }.push [.close .parenthesizedExpression]
    else none

/-- is something in front of each comma? -/
def isDense : (afterItem : Bool) → List Tree → Bool
  | _, [] => true
  | afterItem, t :: ts =>
    if t.extra then isDense afterItem ts
    else if t.kind = .other "," then afterItem && isDense false ts
    else isDense t.named ts

/-- arguments that are meant as the parameters of an arrow function -/
def Piece.toParameters? (p : Piece) : Option Piece :=
  match p.tree with
  | .node _ named extra role span children =>
    if p.asPattern && isDense false children then
      some { tree := .node .formalParameters named extra role span (Tree.toPatterns children) }
    else none

/-- behind `async` and a list in parentheses: an arrow function if an arrow follows, else a call -/
def asyncEndStep (c : Context) (s : State) : Option State :=
  let call := s.last?.all (·.asExpression)
  let (behind, s) := s.peek (if call then .afterOperand c.semicolon else { operand := false })
  if behind.isMark "=>" then
    (s.last?.bind Piece.toParameters?).map fun parameters =>
      ((s.changeLast fun _ => parameters).changeFirst fun t => .node (.other "async") false false none t.span []).push
        [.role .parameters, .mark "=>", .expression (.arrowBody c), .close .arrowFunction]
  else
    some ((s.changeFirst fun t => t.withRole .function).push [.role .arguments, .close .callExpression])

/-- the words that a statement or an expression may start with, other than as a name -/
def leadingWords : List String :=
  ["import", "debugger", "var", "const", "function", "class", "if", "switch", "for", "while", "do", "try", "with",
    "break", "continue", "return", "throw", "this", "super", "true", "false", "null", "undefined", "new", "yield",
    "await", "typeof", "void", "delete"]

/-- is the token a word that no statement or expression starts with, and so a label or a plain key? -/
def isPlainWord (t : Token) : Bool :=
  t.sort == .word && !leadingWords.contains t.text

/-- can a brace that may also open a block open an object? A first word that starts a statement is taken as such. -/
def mayOpenObject (brace : Token) : Bool :=
  let key := State.peekBehind brace .plain
  key.sort != .word || isPlainWord key

/-- does a brace open an object rather than a block, going by a first key and its colon? -/
def opensObject (brace : Token) : Bool :=
  let key := State.peekBehind brace .plain
  let behind := State.peekBehind key { operand := false }
  (isPlainWord key || key.sort == .number) && behind.isMark ":"

/-- the body of an arrow function: an expression or a block -/
def arrowBodyStep (c : Context) (s : State) : Option State :=
  let (t, s) := s.peek .plain
  let body : Goal := .expression (.expression c)
  let block : Goal := .statement (.block .operand)
  if t.isMark "\x7b" then
    if opensObject t then some (s.push [.either [body, .commit] [block]])
    else if mayOpenObject t then some (s.push [.either [block, .commit] [body]])
    else some (s.push [block])
  else some (s.push [body])

def ExpressionGoal.step (s : State) : ExpressionGoal → Option State
  | .expression c => some (s.push [.expression (.operand c), .expression (.tail c 0)])
  | .expressions c => some (s.push [.expression (.expression c), .expression (.comma c)])
  | .comma c =>
    let (t, s) := s.peek (.afterOperand c.semicolon)
    some (if t.isMark "," then s.push (Goal.suffix .sequence [.expression (.moreComma c)]) else s)
  | .moreComma c =>
    let (t, s) := s.peek (.afterOperand c.semicolon)
    some (if t.isMark "," then
      (s.shiftMark t).push [.expression (.expression c), .expression (.moreComma c)] else s)
  | .operand c => operandStep c s
  | .tail c least => tailStep c least s
  | .operatorMark text =>
    let (t, s) := s.peek (.afterOperand false)
    if t.isMark text then some (s.shiftMark t) else none
  | .yieldRest c =>
    let (t, s) := s.peek { semicolon := c.semicolon, operator := true }
    if t.isMark "*" then some ((s.shiftMark t).push [.expression (.expression c)])
    else some (if startsExpression t then s.push [.expression (.expression c)] else s)
  | .newTarget c =>
    let (t, s) := s.peek .plain
    if ["!", "~", "+", "-", "++", "--", "typeof", "void", "delete", "await", "yield"].contains t.text then none
    else if t.isWord "async" && (State.peekBehind t .plain).isMark "(" then
      some ((s.shift .identifier t).push [.expression (.memberTail c)])
    else some (s.push [.expression (.operand c), .expression (.memberTail c)])
  | .memberTail c =>
    let (t, s) := s.peek (.afterOperand c.semicolon)
    some (s.push ((if t.sort = .punctuator then linkGoals? t (.expression (.memberTail c)) else none).getD []))
  | .newArguments c =>
    let (t, s) := s.peek (.afterOperand c.semicolon)
    some (if t.isMark "(" then s.push [.expression .arguments] else s)
  | .property =>
    let (t, s) := s.peek .plain
    match t.sort with
    | .word => some (s.shift .propertyIdentifier t)
    | .privateName => some (s.shift .privateProperty t)
    | _ => none
  | .optionalLink =>
    let (t, s) := s.peek (.afterOperand false)
    if !t.isMark "?." then none
    else
      let s := s.shift (.other "optional_chain") t
      let (behind, _) := s.peek .plain
      if behind.isMark "(" then
        some (s.push [.expression .arguments, .role .arguments, .expression .linkedFunction, .close .callExpression])
      else if behind.isMark "[" then
        some (s.push [.mark "[", .expression (.expressions .nested), .mark "]", .close .subscriptExpression])
      else some (s.push [.expression .property, .close .memberExpression])
  | .linkedFunction => some (s.changeFirst fun t => t.withRole .function)
  | .parenItems =>
    let (t, s) := s.peek .plain
    if t.isMark ")" then some s
    else if t.isMark "..." then some (s.push (spreadGoals ++ [.expression .parenNext]))
    else some (s.push [.expression (.expression .nested), .expression .parenNext])
  | .parenNext =>
    let (t, s) := s.peek (.afterOperand false)
    if t.isMark "," then some ((s.shiftMark t).push [.expression .parenItems])
    else if t.isMark ")" then some s
    else none
  | .parenEnd c => parenEndStep c s
  | .asyncEnd c => asyncEndStep c s
  | .arrowBody c => arrowBodyStep c s
  | .arguments => some (s.push (Goal.node .arguments [.mark "(", .expression .argumentItems]))
  | .argumentItems => sparseItem ")" (.expression .argumentItems) (.expression .argumentNext) s
  | .argumentNext => listNext ")" (.expression .argumentItems) s
  | .arrayItems => sparseItem "]" (.expression .arrayItems) (.expression .arrayNext) s
  | .arrayNext => listNext "]" (.expression .arrayItems) s
  | .optionalName =>
    let (t, s) := s.peek .plain
    some (if t.sort = .word then (s.shift .identifier t).push [.role .name] else s)
  | .parameters => some (s.push parameterGoals)
  | .parameterItems =>
    let (t, s) := s.peek .plain
    if t.isMark ")" then some (s.shiftMark t)
    else if t.isMark "..." then some (s.push (spreadGoals ++ [.pattern, .expression .parameterNext]))
    else some (s.push [.expression (.expression .nested), .pattern, .expression .parameterNext])
  | .parameterNext => listNext ")" (.expression .parameterItems) s

end ScriptTriage.Reader

import ScriptTriage.Reader.Member
import ScriptTriage.Reader.Quoted

/-
Statements. The first word or bracket mostly decides what a statement is; a brace may open a block or an object, and
the head of a `for` may be one of two forms, so there both readings are tried.
-/

namespace ScriptTriage.Reader

/-- the marks that can only go on with an expression, never start a statement -/
def expressionMarks : List String :=
  [".", "?.", "=", ",", "||", "&&", "??", "*", "%", "**", "==", "!=", "===", "!==", ">", ">=", ">>", ">>>", "<=", "<<",
    "&", "|", "^"]

/-- can the token only go on with an expression? -/
def isContinuation (t : Token) : Bool :=
  match t.sort with
  | .question => true
  | .word => t.text = "in" || t.text = "instanceof"
  | .punctuator => expressionMarks.contains t.text
  | _ => false

def expressionStatementGoals : List Goal :=
  Goal.node .expressionStatement [.expression (.expressions .statement), .statement (.semicolon true)]

def variableGoals (word : String) : List Goal :=
  if word = "var" then
    Goal.node .variableDeclaration
      [.word word, .statement (.declarators .statement), .statement (.semicolon false)]
  else
    Goal.node .lexicalDeclaration
      [.word word, .role .kind, .statement (.declarators .statement), .statement (.semicolon false)]

/-- does `let` declare variables here? -/
def letDeclares (t : Token) : Bool :=
  let behind := State.peekBehind t (.afterOperand true)
  behind.isMark "[" || behind.isMark "\x7b" ||
    (behind.sort == .word && behind.text != "in" && behind.text != "instanceof")

/-- has the function whose word `function` is this token a name? -/
def isNamedFunction (t : Token) : Bool :=
  let behind := State.peekBehind t .plain
  if behind.isMark "*" then (State.peekBehind behind .plain).sort == .word else behind.sort == .word

def functionDeclarationGoals (isAsync : Bool) (t : Token) (use : BlockUse) : List Goal :=
  let generator := isGenerator t
  functionGoals isAsync generator (.expression .optionalName) use
    (if generator then .generatorFunctionDeclaration else .functionDeclaration)

def classDeclarationGoals (operator : Bool) : List Goal :=
  Goal.node .classDeclaration
    [.member .decorators, .word "class", .member (.className true), .member .heritage, .member .classBody,
      .build (.impliedSemicolon operator)]

/-- has the class whose word `class` is this token a name? -/
def isNamedClass (t : Token) : Bool :=
  let behind := State.peekBehind t .plain
  behind.sort == .word && behind.text != "extends"

/-- a declaration that starts with this token, at a place where only a declaration or an expression can stand;
nothing if it starts none -/
def declarationGoals? (t : Token) (use : BlockUse) : Option (List Goal) :=
  match t.text with
  | "var" | "const" => some (variableGoals t.text)
  | "let" => if letDeclares t then some (variableGoals "let") else none
  | "function" => if isNamedFunction t then some (functionDeclarationGoals false t use) else none
  | "async" =>
    let behind := State.peekBehind t (.afterOperand true)
    if behind.isWord "function" && isNamedFunction behind then some (functionDeclarationGoals true behind use) else none
  | "class" => if isNamedClass t then some (classDeclarationGoals (use = .operand)) else none
  | _ => none

/-- the kind of expression that a declaration starting with this token would be -/
def expressionKindOf? (t : Token) : Option Kind :=
  match t.text with
  | "function" => some (if isGenerator t then .generatorFunction else .functionExpression)
  | "async" =>
    let behind := State.peekBehind t .plain
    some (if isGenerator behind then .generatorFunction else .functionExpression)
  | "class" => some .classExpression
  | _ => none

/-- a loop's head with `in` or `of`, behind its parenthesis -/
def forInGoals (t : Token) : List Goal :=
  let rest : List Goal :=
    [.expression (.expressions .nested), .role .right, .mark ")", .commit, .statement .statement, .role .body,
      .close .forInStatement]
  let noIn : Context := { semicolon := true, noIn := true }
  if t.isWord "var" then
    [.word "var", .role .kind, .statement .bindingTarget, .role .left, .statement (.initializer noIn),
      .statement (.loopOperator true)] ++ rest
  else if t.isWord "const" || (t.isWord "let" && letDeclares t) then
    [.word t.text, .role .kind, .statement .bindingTarget, .role .left, .build (.impliedSemicolon false),
      .statement (.loopOperator false)] ++ rest
  else
    [.expression (.operand { noIn := true }), .expression (.tail { noIn := true } callStrength), .target, .role .left,
      .statement (.loopOperator false)] ++ rest

/-- a loop's head with semicolons, behind its parenthesis -/
def forGoals (t : Token) : List Goal :=
  let rest : List Goal :=
    [.statement .forCondition, .statement .forIncrement, .mark ")", .statement .statement, .role .body,
      .close .forStatement]
  if t.isWord "var" || t.isWord "const" || (t.isWord "let" && letDeclares t) then variableGoals t.text ++ rest
  else if t.isMark ";" then .build (.emptyStatement) :: rest
  else .expression (.expressions .nested) :: .mark ";" :: rest

/-- does `export` start a statement here, rather than being a name? -/
def exports (t : Token) : Bool :=
  let behind := State.peekBehind t { semicolon := true, operator := true }
  behind.isMark "*" || behind.isMark "\x7b" || behind.isMark "@" ||
    (behind.sort == .word && ["default", "var", "let", "const", "function", "async", "class"].contains behind.text)

/-- a statement that starts with this keyword; nothing for other words -/
def keywordGoals? (t : Token) : Option (List Goal) :=
  let body : List Goal := [.statement .statement, .role .body]
  let condition : List Goal := [.statement .condition, .role .condition]
  match t.text with
  | "if" => some (Goal.node .ifStatement
      (.word "if" :: condition ++ [.statement .statement, .role .consequence, .statement .elseBranch]))
  | "while" => some (Goal.node .whileStatement (.word "while" :: condition ++ body))
  | "do" => some (Goal.node .doStatement
      (.word "do" :: body ++ .word "while" :: condition ++ [.statement .optionalSemicolon]))
  | "for" =>
    if (State.peekBehind t .plain).isWord "await" then
      some [.start, .word "for", .word "await", .mark "(", .statement .forAwaitHead]
    else some [.start, .word "for", .mark "(", .statement .forHead]
  | "with" => some (Goal.node (.other "with_statement") (.word "with" :: .statement .condition :: body))
  | "switch" => some (Goal.node (.other "switch_statement") (.word "switch" :: .statement .condition ::
      Goal.node (.other "switch_body") [.mark "\x7b", .statement .cases]))
  | "try" => some (Goal.node (.other "try_statement")
      [.word "try", .statement (.block .plain), .statement .catchClause, .statement .finallyClause])
  | "return" => some (Goal.node .returnStatement
      [.word "return", .statement .returnRest, .statement (.semicolon false)])
  | "throw" => some (Goal.node (.other "throw_statement")
      [.word "throw", .expression (.expressions .statement), .statement (.semicolon true)])
  | "break" | "continue" => some (Goal.node (.other (t.text ++ "_statement"))
      [.word t.text, .statement .jumpLabel, .statement (.semicolon false)])
  | "debugger" => some (Goal.node (.other "debugger_statement") [.word "debugger", .statement (.semicolon false)])
  | "import" =>
    let behind := State.peekBehind t .plain
    if behind.isMark "(" || behind.isMark "." then none
    else some (Goal.node (.other "import_statement") [.word "import", .statement .importClause,
      .statement .importAttribute, .statement (.semicolon false)])
  | "export" =>
    if exports t then some (Goal.node (.other "export_statement") [.word "export", .statement .exportRest]) else none
  | _ => none

def wordStatement (s : State) (t : Token) : State :=
  match keywordGoals? t with
  | some goals => s.push goals
  | none =>
    match declarationGoals? t .operand with
    | some goals =>
      s.push (goals ++ ((expressionKindOf? t).map fun kind => Goal.statement (.declarationEnd kind)).toList)
    | none =>
      if isPlainWord t && (State.peekBehind t { operand := false }).isMark ":" then
        s.push (Goal.node (.other "labeled_statement")
          [.name (.other "statement_identifier"), .mark ":", .statement .statement])
      else s.push expressionStatementGoals

def statementStep (s : State) : Option State :=
  let (t, s) := s.peek .plain
  match t.sort with
  | .word => some (wordStatement s t)
  | .punctuator =>
    if t.text = "\x7b" then
      if opensObject t then
        some (s.push [.either (expressionStatementGoals ++ [.commit]) [.statement (.block .statement)]])
      else if !mayOpenObject t then some (s.push [.statement (.block .statement)])
      else
        some (s.push [.either [.statement (.block .statement), .statement .blockSettled, .commit]
          expressionStatementGoals])
    else if t.text = ";" then some (s.push [.build .emptyStatement])
    else if t.text = "@" then
      some (s.push [.either
        (classDeclarationGoals true ++ [.statement (.declarationEnd .classExpression), .commit])
        [.either
          (Goal.node (.other "export_statement") [.member .decorators, .word "export", .statement .exportRest] ++
            [.commit])
          expressionStatementGoals]])
    else some (s.push expressionStatementGoals)
  | .number | .privateName => some (s.push expressionStatementGoals)
  | _ => none

/-- the end of a block, where a semicolon may be implied -/
def blockEndStep (use : BlockUse) (s : State) : State :=
  let operator := match use with
    | .statement => (items s.frame).isEmpty
    | .operand => true
    | .plain => false
  let (t, s) := s.peek (.mayEnd operator)
  if t.sort = .impliedSemicolon then s.shiftMark t else s

/-- what may follow a declaration that could also have been an expression -/
def declarationEndStep (kind : Kind) (s : State) : State :=
  let (t, s) := s.peek (.afterOperand true)
  if isContinuation t then
    (s.changeLast fun p => { p with tree := p.tree.withKind kind }).push
      (Goal.suffix .expressionStatement [.expression (.tail .statement 0), .expression (.comma .statement),
        .statement (.semicolon true)])
  else s

def casesStep (s : State) : Option State :=
  let (t, s) := s.peek .plain
  if t.isMark "\x7d" then some (s.shiftMark t)
  else if t.isWord "case" then
    some (s.push (Goal.node (.other "switch_case")
      [.word "case", .expression (.expressions .nested), .mark ":", .statement (.statements true)] ++
        [.statement .cases]))
  else if t.isWord "default" then
    some (s.push (Goal.node (.other "switch_default")
      [.word "default", .mark ":", .statement (.statements true)] ++ [.statement .cases]))
  else none

def importClauseStep (s : State) : Option State :=
  let (t, s) := s.peek .plain
  let source : List Goal := [.word "from", .literal .string]
  if t.isMark "'" || t.isMark "\"" then some (s.push [.literal .string])
  else if t.sort = .word then
    some (s.push (Goal.node (.other "import_clause") [.name .identifier, .statement .importMore] ++ source))
  else if t.isMark "*" || t.isMark "\x7b" then
    some (s.push (Goal.node (.other "import_clause") [.statement .importNames] ++ source))
  else none

/-- the part of an export behind its word -/
def exportRestStep (s : State) : Option State :=
  let (t, s) := s.peek .plain
  if t.isMark "*" then
    let all : List Goal :=
      if (State.peekBehind t .plain).isWord "as" then
        Goal.node (.other "namespace_export") [.mark "*", .word "as", .statement .moduleName]
      else [.mark "*"]
    some (s.push (all ++ [.word "from", .literal .string, .statement (.semicolon false)]))
  else if t.isMark "\x7b" then
    some (s.push (Goal.node (.other "export_clause") [.mark "\x7b", .statement .specifiers] ++
      [.statement .exportSource, .statement (.semicolon false)]))
  else if t.isWord "default" then some ((s.shiftMark t).push [.statement .exportDefault])
  else if t.isMark "@" then some (s.push (classDeclarationGoals false))
  else (declarationGoals? t .plain).map s.push

def StatementGoal.step (s : State) : StatementGoal → Option State
  | .statement => statementStep s
  | .statements inSwitch =>
    let (t, s) := s.peek .plain
    some (if t.isMark "\x7d" || t.sort = .endOfScript || (inSwitch && (t.isWord "case" || t.isWord "default")) then s
      else s.push [.statement .statement, .statement (.statements inSwitch)])
  | .semicolon operator =>
    let (t, s) := s.peek (.mayEnd operator)
    if t.isMark ";" || t.sort = .impliedSemicolon then some (s.shiftMark t) else none
  | .optionalSemicolon =>
    let (t, s) := s.peek (.mayEnd false)
    some (if t.isMark ";" || t.sort = .impliedSemicolon then s.shiftMark t else s)
  | .block use =>
    some (s.push (Goal.node .statementBlock
      [.mark "\x7b", .statement (.statements false), .mark "\x7d", .statement (.blockEnd use)]))
  | .blockEnd use => some (blockEndStep use s)
  | .blockSettled =>
    let (t, s) := s.peek (.afterOperand true)
    if isContinuation t then none else some s
  | .condition =>
    some (s.push (Goal.node .parenthesizedExpression
      [.mark "(", .expression (.expressions .nested), .mark ")"]))
  | .declarators c =>
    some (s.push (Goal.node .variableDeclarator
      [.statement .bindingTarget, .role .name, .statement (.initializer c)] ++ [.statement (.moreDeclarators c)]))
  | .moreDeclarators c =>
    let (t, s) := s.peek { semicolon := c.semicolon, operand := false }
    some (if t.isMark "," then (s.shiftMark t).push [.statement (.declarators c)] else s)
  | .initializer c =>
    let (t, s) := s.peek { semicolon := c.semicolon, operand := false }
    some (if t.isMark "=" then (s.shiftMark t).push [.expression (.expression c), .role .value] else s)
  | .bindingTarget =>
    let (t, s) := s.peek .plain
    if t.isMark "[" then some (s.push (Goal.node .array [.mark "[", .expression .arrayItems] ++ [.pattern]))
    else if t.isMark "\x7b" then some (s.push [.member .object, .pattern])
    else if t.sort = .word then some (s.shift .identifier t)
    else none
  | .elseBranch =>
    let (t, s) := s.peek .plain
    some (if t.isWord "else" then
      s.push (Goal.node .elseClause [.word "else", .statement .statement] ++ [.role .alternative]) else s)
  | .declarationEnd kind => some (declarationEndStep kind s)
  | .forHead =>
    let (t, s) := s.peek .plain
    some (if t.isMark ";" then s.push (forGoals t) else s.push [.either (forInGoals t) (forGoals t)])
  | .forAwaitHead =>
    let (t, s) := s.peek .plain
    some (s.push ((forInGoals t).filter fun g => match g with | .commit => false | _ => true))
  | .forCondition =>
    let (t, s) := s.peek .plain
    some (s.push (if t.isMark ";" then [.build .emptyStatement]
      else [.expression (.expressions .nested), .mark ";"]))
  | .forIncrement =>
    let (t, s) := s.peek .plain
    some (if t.isMark ")" then s else s.push [.expression (.expressions .nested)])
  | .loopOperator ended =>
    let (t, s) := s.peek { semicolon := ended, operand := false }
    if t.isWord "in" || t.isWord "of" then some ((s.shiftMark t).push [.role .operator]) else none
  | .returnRest =>
    let (t, s) := s.peek (.mayEnd false)
    some (if t.sort = .impliedSemicolon || t.isMark ";" then s else s.push [.expression (.expressions .statement)])
  | .jumpLabel =>
    let (t, s) := s.peek (.mayEnd false)
    some (if t.sort = .word then s.shift (.other "statement_identifier") t else s)
  | .catchClause =>
    let (t, s) := s.peek .plain
    some (if t.isWord "catch" then
      s.push (Goal.node (.other "catch_clause")
        [.word "catch", .statement .catchParameter, .statement (.block .plain)]) else s)
  | .catchParameter =>
    let (t, s) := s.peek .plain
    some (if t.isMark "(" then s.push [.mark "(", .statement .bindingTarget, .mark ")"] else s)
  | .finallyClause =>
    let (t, s) := s.peek .plain
    some (if t.isWord "finally" then
      s.push (Goal.node (.other "finally_clause") [.word "finally", .statement (.block .plain)]) else s)
  | .cases => casesStep s
  | .importClause => importClauseStep s
  | .importMore =>
    let (t, s) := s.peek .plain
    some (if t.isMark "," then (s.shiftMark t).push [.statement .importNames] else s)
  | .importNames =>
    let (t, s) := s.peek .plain
    if t.isMark "*" then
      some (s.push (Goal.node (.other "namespace_import") [.mark "*", .word "as", .name .identifier]))
    else some (s.push (Goal.node (.other "named_imports") [.mark "\x7b", .statement .specifiers]))
  | .importAttribute =>
    let (t, s) := s.peek (.mayEnd false)
    some (if t.isWord "with" then
      s.push (Goal.node (.other "import_attribute") [.word "with", .member .object]) else s)
  | .moduleName =>
    let (t, s) := s.peek .plain
    if t.sort = .word then some (s.shift .identifier t) else some (s.push [.literal .string])
  | .specifiers =>
    let (t, s) := s.peek .plain
    if t.isMark "\x7d" then some (s.shiftMark t)
    else some (s.push (Goal.node (.other "module_specifier") [.statement .moduleName, .statement .moduleAlias] ++
      [.statement .specifierNext]))
  | .specifierNext => listNext "\x7d" (.statement .specifiers) s
  | .moduleAlias =>
    let (t, s) := s.peek .plain
    some (if t.isWord "as" then (s.shiftMark t).push [.statement .moduleName] else s)
  | .exportRest => exportRestStep s
  | .exportSource =>
    let (t, s) := s.peek (.mayEnd false)
    some (if t.isWord "from" then (s.shiftMark t).push [.literal .string] else s)
  | .exportDefault =>
    let (t, s) := s.peek .plain
    some (s.push ((if t.sort = .word then declarationGoals? t .operand else none).getD
      [.expression (.expression .statement), .statement (.semicolon true)]))

end ScriptTriage.Reader

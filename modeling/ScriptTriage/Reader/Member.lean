import ScriptTriage.Reader.Expression

/-
Members of objects and classes. Words such as `get` or `static` are modifiers only if a name follows them; in front
of a parenthesis, a colon or the end of the member they are the name.
-/

namespace ScriptTriage.Reader

/-- the words that may stand in front of a member's name: at most one of each rank, in this order -/
def modifierRanks : List (List String) := [["static"], ["async"], ["get", "set"]]

/-- the token behind a member's first word; in a class a semicolon may be implied there -/
def behindWord (inClass : Bool) (t : Token) : Token :=
  State.peekBehind t { semicolon := inClass, operand := false }

/-- is the token one of these words and a modifier of the member that follows? -/
def isModifier (inClass : Bool) (words : List String) (t : Token) : Bool :=
  let behind := behindWord inClass t
  t.sort == .word && words.contains t.text && behind.sort != .impliedSemicolon &&
    !(behind.sort == .punctuator && ["(", ",", "\x7d", ":", "=", ";"].contains behind.text)

def methodRest : List Goal :=
  [.expression .parameters, .role .parameters, .statement (.block .plain), .role .body]

/-- a member of an object that starts with a word -/
def wordMember (s : State) (t : Token) : Option State :=
  let behind := behindWord false t
  if isModifier false modifierRanks.flatten t then
    some (s.push (Goal.node (.other "method_definition")
      (.member (.modifiers false modifierRanks) :: .member .key :: methodRest)))
  else if behind.isMark ":" || behind.isMark "(" then some (s.push [.member .key, .member .afterObjectKey])
  else if behind.isMark "=" then
    some (s.push (Goal.node .objectAssignmentPattern
      [.name .shorthandPattern, .mark "=", .expression (.expression .nested)]))
  else some (s.shift .shorthand t)

def decoratorGoals : List Goal :=
  Goal.node (.other "decorator") [.mark "@", .name .identifier, .member .decoratorTail]

/-- can the pieces of a member be those of a field? Of the modifiers it takes `static` only. -/
def isField (frame : List Piece) : Bool :=
  frame.all fun p => p.tree.named || p.extra || p.kind = .other "static"

def classItemStep (s : State) : Option State :=
  let (t, s) := s.peek .plain
  let member : List Goal :=
    [.start, .member .decorators, .member (.modifiers true modifierRanks), .member .key, .member .afterClassKey]
  if t.isWord "static" then
    let behind := behindWord true t
    let opening := if behind.sort = .impliedSemicolon then State.peekBehind behind .plain else behind
    some (s.push (if opening.isMark "\x7b" then
      Goal.node (.other "class_static_block")
        [.word "static", .build (.impliedSemicolon false), .statement (.block .plain)]
    else member))
  else some (s.push member)

def MemberGoal.step (s : State) : MemberGoal → Option State
  | .object => some (s.push (Goal.node .object [.mark "\x7b", .member .objectItems]))
  | .objectItems =>
    let (t, s) := s.peek .plain
    if t.isMark "\x7d" then some (s.shiftMark t)
    else if t.isMark "," then some ((s.shiftMark t).push [.member .objectItems])
    else some (s.push [.member .objectItem, .member .objectNext])
  | .objectNext => listNext "\x7d" (.member .objectItems) s
  | .objectItem =>
    let (t, s) := s.peek .plain
    if t.isMark "..." then some (s.push spreadGoals)
    else if t.isMark "*" || t.isMark "@" then
      some (s.push (Goal.node (.other "method_definition")
        (.member .decorators :: .member (.modifiers false modifierRanks) :: .member .key :: methodRest)))
    else if t.sort = .word then wordMember s t
    else some (s.push [.member .key, .member .afterObjectKey])
  | .modifiers inClass ranks =>
    let (t, s) := s.peek .plain
    match ranks with
    | [] => some s
    | rank :: more =>
      some (if more.isEmpty && t.isMark "*" then s.shiftMark t
        else if isModifier inClass rank t then (s.shiftMark t).push [.member (.modifiers inClass more)]
        else s.push [.member (.modifiers inClass more)])
  | .key =>
    let (t, s) := s.peek .plain
    match t.sort with
    | .word => some (s.shift .propertyIdentifier t)
    | .privateName => some (s.shift .privateProperty t)
    | .number => some (s.shift .number t)
    | .punctuator =>
      if t.text = "'" || t.text = "\"" then some (s.push [.literal .string])
      else if t.text = "[" then
        some (s.push (Goal.node (.other "computed_property_name")
          [.mark "[", .expression (.expression .nested), .mark "]"]))
      else none
    | _ => none
  | .afterObjectKey =>
    let (t, s) := s.peek .plain
    if t.isMark ":" then some (s.push (Goal.suffix .pair [.mark ":", .expression (.expression .nested)]))
    else if t.isMark "(" then some (s.push (Goal.suffix (.other "method_definition") methodRest))
    else none
  | .decorators =>
    let (t, s) := s.peek .plain
    some (if t.isMark "@" then s.push (decoratorGoals ++ [.member .decorators]) else s)
  | .decoratorTail =>
    let (t, s) := s.peek { operand := false }
    some (if t.isMark "." then
        s.push (Goal.suffix .memberExpression [.mark ".", .name .propertyIdentifier] ++ [.member .decoratorTail])
      else if t.isMark "(" then s.push (Goal.suffix .callExpression [.expression .arguments])
      else s)
  | .className required =>
    let (t, s) := s.peek .plain
    if t.sort = .word && (required || t.text ≠ "extends") then some ((s.shift .identifier t).push [.role .name])
    else if required then none
    else some s
  | .heritage =>
    let (t, s) := s.peek .plain
    some (if t.isWord "extends" then
      s.push (Goal.node (.other "class_heritage") [.word "extends", .expression (.expression .nested)]) else s)
  | .classBody => some (s.push (Goal.node (.other "class_body") [.mark "\x7b", .member .classItems]))
  | .classItems =>
    let (t, s) := s.peek .plain
    if t.isMark "\x7d" then some (s.shiftMark t)
    else if t.isMark ";" then some ((s.shiftMark t).push [.member .classItems])
    else some (s.push [.member .classItem, .member .classItems])
  | .classItem => classItemStep s
  | .afterClassKey =>
    let (t, s) := s.peek (.mayEnd false)
    if t.isMark "(" then some (s.push (methodRest ++ [.close (.other "method_definition")]))
    else if !isField s.frame then none
    else if t.isMark "=" then
      some (s.push [.mark "=", .expression (.expression .statement), .close (.other "field_definition"),
        .statement (.semicolon false)])
    else some (s.push [.close (.other "field_definition"), .statement (.semicolon false)])

end ScriptTriage.Reader

import ScriptTriage.Reader.Goal

/-
Literals and markup: strings, templates, regular expressions and elements. Inside them characters count, and blanks
are text. Only the closing quote of a string may stand behind blanks that are not part of the text.
-/

namespace ScriptTriage.Reader

/-- a letter, a digit, `_` or `$` -/
def isElementNamePart (c : Char) : Bool := isAsciiLetter c || isAsciiDigit c || c = '_' || c = '$'

/-- a name in markup with at least one hyphen in it -/
def hyphenatedLength : List Char → Nat
  | c :: cs =>
    if isElementNamePart c && !isAsciiDigit c then
      let n := runLength isElementNamePart cs
      if (cs.drop n).head? = some '-' then
        n + 1 + runLength (fun c => isElementNamePart c || c = '-') (cs.drop n)
      else 0
    else 0
  | [] => 0

def elementNameLength (cs : List Char) : Nat := max (nameLength cs) (hyphenatedLength cs)

/-- a character reference in markup, such as `&amp;` or `&#39;` -/
def referenceLength : List Char → Nat
  | '&' :: '#' :: c :: cs =>
    let n :=
      if c = 'x' || c = 'X' then
        let n := runLength Text.isHexDigit cs
        if 1 ≤ n && n ≤ 6 then n + 1 else 0
      else
        let n := runLength isAsciiDigit (c :: cs)
        if 1 ≤ n && n ≤ 5 then n else 0
    if 0 < n && ((c :: cs).drop n).head? = some ';' then n + 3 else 0
  | '&' :: cs =>
    let n := runLength isAsciiLetter cs
    if 1 ≤ n && n ≤ 30 && (cs.drop n).head? = some ';' then n + 2 else 0
  | _ => 0

/-- text between elements: its length, and whether there is more to it than line ends and the blanks behind them -/
def elementTextLength : List Char → (atBreak seen : Bool) → (n : Nat) → Nat × Bool
  | [], _, seen, n => (n, seen)
  | c :: cs, atBreak, seen, n =>
    if ['\x00', '<', '>', '\x7b', '\x7d', '&'].contains c then (n, seen)
    else if c = '\n' then elementTextLength cs true seen (n + 1)
    else
      let atBreak := atBreak && isAsciiSpace c
      elementTextLength cs atBreak (seen || !atBreak) (n + 1)

/-- text in the value of an attribute, up to the quote or a reference -/
def attributeTextLength (quote : Char) : List Char → Nat → Nat
  | c :: cs, n =>
    if c = quote then n
    else if c = '&' then
      match cs with
      | d :: cs => if d = '#' || isAsciiLetter d then n else attributeTextLength quote cs (n + 2)
      | [] => n
    else attributeTextLength quote cs (n + 1)
  | [], n => n

/-- an expression in braces inside markup -/
def braceGoals : List Goal := Goal.node (.other "jsx_expression") [.mark "\x7b", .literal .braceRest, .mark "\x7d"]

/-- the quoted value of an attribute, behind its quote -/
def attributePartsStep (quote : Char) (s : State) : Option State :=
  let cs := s.cursor.rest
  let n := attributeTextLength quote cs 0
  if 0 < n then some ((s.shiftLength .stringFragment true n).push [.literal (.attributeParts quote)])
  else
    let n := referenceLength cs
    if 0 < n then
      some ((s.shiftLength (.other "html_character_reference") true n).push [.literal (.attributeParts quote)])
    else if cs.head? = some quote then some (s.shiftLength (.other (String.singleton quote)) false 1)
    else none

/-- what stands between the tags of an element -/
def childrenStep (s : State) : Option State :=
  let (n, seen) := elementTextLength s.cursor.rest false false 0
  if seen then some ((s.shiftLength (.other "jsx_text") true n).push [.literal .children])
  else
    let (t, s) := s.peek .plain
    let s := { s with cursor := t.start }
    let n := referenceLength t.start.rest
    if 0 < n then some ((s.shiftLength (.other "html_character_reference") true n).push [.literal .children])
    else if t.isMark "<" then
      if t.stop.rest.head? = some '/' then
        some (({ s with frames := [] :: s.frames }.shiftLength (.other "</") false 2).push
          [.literal .closingName, .mark ">", .close (.other "jsx_closing_element")])
      else some (s.push [.literal .element, .literal .children])
    else if t.isMark "\x7b" then some (s.push (braceGoals ++ [.literal .children]))
    else none

def shiftElementName (kind : Kind) (s : State) : Option State :=
  let (t, s) := s.peek .plain
  let n := elementNameLength t.start.rest
  if 0 < n then some ({ s with cursor := t.start }.shiftLength kind true n) else none

/-- what follows the name of an element: attributes and the end of the tag -/
def attributesStep (s : State) : Option State :=
  let (t, s) := s.peek .plain
  if t.isMark ">" then
    some ((s.shiftMark t).push
      [.close (.other "jsx_opening_element"), .wrap, .literal .children, .close (.other "jsx_element")])
  else if t.isMark "/" && t.stop.rest.head? = some '>' then
    some (({ s with cursor := t.start }.shiftLength (.other "/>") false 2).push
      [.close (.other "jsx_self_closing_element")])
  else if t.isMark "\x7b" then some (s.push (braceGoals ++ [.literal .attributes]))
  else
    some (s.push (Goal.node (.other "jsx_attribute") [.literal .attributeName, .literal .attributeValue] ++
      [.literal .attributes]))

/-- the characters of a string up to its quote -/
def stringPartsStep (quote : Char) (s : State) : Option State :=
  let cs := s.cursor.rest
  let n := runLength (fun c => c ≠ quote && c ≠ '\\' && c ≠ '\r' && c ≠ '\n') cs
  if 0 < n then some ((s.shiftLength .stringFragment true n).push [.literal (.stringParts quote)])
  else
    let n := escapeLength cs
    if 0 < n then some ((s.shiftLength .escapeSequence true n).push [.literal (.stringParts quote)])
    else
      let (t, s) := { s with markup := false }.peek .plain
      if t.isMark (String.singleton quote) then some (s.shiftMark t) else none

/-- the characters of a template up to its backquote -/
def templatePartsStep (s : State) : Option State :=
  let cs := s.cursor.rest
  let again : Goal := .literal .templateParts
  match templateCharsLength cs 0 with
  | some (n + 1) => some ((s.shiftLength .stringFragment true (n + 1)).push [again])
  | _ =>
    let n := escapeLength cs
    if 0 < n then some ((s.shiftLength .escapeSequence true n).push [again])
    else if cs.head? = some '\x60' then some (s.shiftLength (.other "\x60") false 1)
    else if cs.take 2 = ['$', '\x7b'] then
      some (({ s with frames := [] :: s.frames }.shiftLength (.other "$\x7b") false 2).push
        [.expression (.expressions .nested), .mark "\x7d", .close (.other "template_substitution"), again])
    else none

/-- a regular expression behind its first slash -/
def regexStep (s : State) : Option State :=
  let n := regexPatternLength s.cursor.rest
  if n = 0 then none
  else
    let s := (s.shiftLength (.other "regex_pattern") true n).changeLast fun p =>
      { p with tree := p.tree.withRole .pattern }
    if s.cursor.rest.head? ≠ some '/' then none
    else
      let s := s.shiftLength (.other "/") false 1
      let flags := runLength (fun c => 'a' ≤ c && c ≤ 'z') s.cursor.rest
      some (if 0 < flags then
        (s.shiftLength (.other "regex_flags") true flags).changeLast fun p =>
          { p with tree := p.tree.withRole .flags }
      else s)

def LiteralGoal.step (s : State) : LiteralGoal → Option State
  | .string =>
    let (t, s) := s.peek .plain
    if t.isMark "'" then some (s.push (Goal.node .string [.mark "'", .literal (.stringParts '\x27')]))
    else if t.isMark "\"" then some (s.push (Goal.node .string [.mark "\"", .literal (.stringParts '\x22')]))
    else none
  | .stringParts quote => stringPartsStep quote s
  | .template => some (s.push (Goal.node (.other "template_string") [.mark "\x60", .literal .templateParts]))
  | .templateParts => templatePartsStep s
  | .regex => some (s.push (Goal.node .regex [.mark "/", .literal .regexRest]))
  | .regexRest => regexStep s
  | .element =>
    let (t, s) := s.peek .plain
    if !t.isMark "<" then none
    else if (State.peekBehind t .plain).isMark ">" then
      some (s.push [.start, .mark "<", .literal .attributes])
    else some (s.push [.start, .mark "<", .literal .elementName, .literal .attributes])
  | .elementName => (shiftElementName .identifier s).map (·.push [.literal .elementNameTail])
  | .elementNameTail =>
    let (t, s) := s.peek .plain
    if t.isMark "." then
      some ((s.shiftMark t).push [.name .propertyIdentifier, .literal .elementNameTail])
    else if t.isMark ":" then shiftElementName .identifier (s.shiftMark t)
    else some s
  | .closingName =>
    let (t, s) := s.peek .plain
    if t.isMark ">" then some s else some (s.push [.literal .elementName])
  | .attributes => attributesStep s
  | .attributeName =>
    (shiftElementName .propertyIdentifier s).bind fun s =>
      let (t, s) := s.peek .plain
      if t.isMark ":" then shiftElementName .identifier (s.shiftMark t) else some s
  | .attributeValue =>
    let (t, s) := s.peek .plain
    if !t.isMark "=" then some s
    else
      let s := s.shiftMark t
      let (t, s) := s.peek .plain
      if t.isMark "'" then some (s.push (Goal.node .string [.mark "'", .literal (.attributeParts '\x27')]))
      else if t.isMark "\"" then some (s.push (Goal.node .string [.mark "\"", .literal (.attributeParts '\x22')]))
      else if t.isMark "\x7b" then some (s.push braceGoals)
      else if t.isMark "<" then some (s.push [.literal .element])
      else none
  | .attributeParts quote => attributePartsStep quote s
  | .braceRest =>
    let (t, s) := s.peek .plain
    if t.isMark "\x7d" then some s
    else if t.isMark "..." then
      some (s.push (Goal.node .spreadElement [.mark "...", .expression (.expression .nested)]))
    else some (s.push [.expression (.expressions .nested)])
  | .children => childrenStep s

end ScriptTriage.Reader

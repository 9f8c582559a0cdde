import ScriptTriage.Yaml.Tag

/-
Tokens of a YAML document. Indentation opens and closes block collections, and a key is known as one only when its
colon is seen: the tokens that open it are then put in front of what was read before.
-/

namespace ScriptTriage.Yaml

inductive TokenKind where
  | directive (directive : Directive)
  | documentStart
  | documentEnd
  | blockSequenceStart
  | blockMappingStart
  | blockEnd
  | flowSequenceStart
  | flowSequenceEnd
  | flowMappingStart
  | flowMappingEnd
  | blockEntry
  | flowEntry
  | key
  | value
  | alias (name : String)
  | anchor (name : String)
  | tag (tag : WrittenTag)
  | scalar (scalar : Scalar)
  | streamEnd
deriving DecidableEq, Repr

/-- a token and the places before and behind it -/
structure Token where
  kind : TokenKind
  start : Mark
  stop : Mark
deriving DecidableEq, Repr

/-- a place where a key may have started: how many tokens stood in front of it -/
structure PossibleKey where
  position : Nat
  mark : Mark
  /-- only a key may stand here -/
  required : Bool
deriving DecidableEq, Repr

/-- the state of the scanner; tokens are kept in order -/
structure Scanner where
  cursor : Cursor
  tokens : List Token := []
  /-- how many flow collections are open -/
  flow : Nat := 0
  /-- the column of the innermost block collection, `-1` outside all of them -/
  indent : Int := -1
  outerIndents : List Int := []
  keyAllowed : Bool := true
  /-- the possible key of each open flow collection and of the block level, the innermost first -/
  keys : List (Option PossibleKey) := [none]

/-- the longest distance between a key and its colon -/
def longestKey : Nat := 1024

namespace Scanner

def mark (s : Scanner) : Mark := s.cursor.mark

/-- put a token at the end -/
def emit (s : Scanner) (kind : TokenKind) (start stop : Mark) : Scanner :=
  { s with tokens := s.tokens ++ [⟨kind, start, stop⟩] }

/-- take a token of `n` characters -/
def take (s : Scanner) (kind : TokenKind) (n : Nat) : Scanner :=
  let stop := s.cursor.skip n
  { s.emit kind s.mark stop.mark with cursor := stop }

/-- open a block collection at a column, unless one is open there -/
def rollIndent (s : Scanner) (column position : Nat) (kind : TokenKind) (mark : Mark) : Scanner :=
  if s.flow = 0 && s.indent < column then
    { s with
      tokens := s.tokens.take position ++ ⟨kind, mark, mark⟩ :: s.tokens.drop position
      indent := column
      outerIndents := s.indent :: s.outerIndents }
  else s

/-- close block collections that start behind a column; `indents` are the open ones, the innermost first -/
def closeBlocks (column : Int) (s : Scanner) : (indents : List Int) → Scanner
  | [] => s
  | outer :: outers =>
    if column < s.indent then
      closeBlocks column { s.emit .blockEnd s.mark s.mark with indent := outer, outerIndents := outers } outers
    else s

/-- close block collections that start behind a column -/
def unrollIndent (s : Scanner) (column : Int) : Scanner :=
  if s.flow = 0 then closeBlocks column s s.outerIndents else s

/-- the fault of a key without its colon -/
def missingColon (s : Scanner) (key : PossibleKey) : Fault :=
  { problem := "could not find expected ':'", mark := s.mark,
    context := some ("while scanning a simple key", key.mark) }

/-- can this still become a key? -/
def isFresh (s : Scanner) (key : PossibleKey) : Bool :=
  key.mark.line == s.mark.line && s.mark.index ≤ key.mark.index + longestKey

/-- forget keys that are too far away -/
def dropStaleKeys (s : Scanner) : Except Fault Scanner :=
  match s.keys.findSome? fun k => k.filter fun k => k.required && !s.isFresh k with
  | some key => .error (s.missingColon key)
  | none => .ok { s with keys := s.keys.map fun k => k.filter s.isFresh }

/-- forget the possible key of this level -/
def removeKey (s : Scanner) : Except Fault Scanner :=
  match s.keys with
  | some key :: keys => if key.required then .error (s.missingColon key) else .ok { s with keys := none :: keys }
  | _ => .ok s

/-- note that a key may start here -/
def saveKey (s : Scanner) : Except Fault Scanner :=
  if s.keyAllowed then
    (s.removeKey).map fun s =>
      { s with keys := some ⟨s.tokens.length, s.mark, s.flow == 0 && s.indent == s.mark.column⟩ :: s.keys.drop 1 }
  else .ok s

/-- the fault of something that may not stand here -/
def notAllowed (s : Scanner) (what : String) : Fault :=
  { problem := what ++ " are not allowed in this context", mark := s.mark }

/-- skip blanks, comments and line breaks in front of the next token -/
def skipToToken : (fuel : Nat) → Scanner → Scanner
  | 0, s => s
  | fuel + 1, s =>
    let tabs := 0 < s.flow || !s.keyAllowed
    let n := (s.cursor.rest.takeWhile fun c => c = ' ' || (tabs && c = '\t')).length
    let c := s.cursor.skip n
    let c := if c.rest.head? = some '#' then c.skipLine else c
    if c.atBreak then skipToToken fuel { s with cursor := c.skipBreak, keyAllowed := s.keyAllowed || s.flow == 0 }
    else { s with cursor := c }

def openFlow (s : Scanner) (kind : TokenKind) : Except Fault Scanner :=
  (s.saveKey).map fun s =>
    { s with keys := none :: s.keys, flow := s.flow + 1, keyAllowed := true }.take kind 1

def closeFlow (s : Scanner) (kind : TokenKind) : Except Fault Scanner :=
  (s.removeKey).map fun s =>
    { s with keys := if s.flow = 0 then s.keys else s.keys.drop 1, flow := s.flow - 1, keyAllowed := false }.take kind 1

/-- a dash in front of an item -/
def blockEntry (s : Scanner) : Except Fault Scanner :=
  if s.flow = 0 && !s.keyAllowed then .error (s.notAllowed "block sequence entries")
  else
    let s := s.rollIndent s.mark.column s.tokens.length .blockSequenceStart s.mark
    (s.removeKey).map fun s => { s with keyAllowed := true }.take .blockEntry 1

/-- a question mark in front of a key -/
def explicitKey (s : Scanner) : Except Fault Scanner :=
  if s.flow = 0 && !s.keyAllowed then .error (s.notAllowed "mapping keys")
  else
    let s := s.rollIndent s.mark.column s.tokens.length .blockMappingStart s.mark
    (s.removeKey).map fun s => { s with keyAllowed := s.flow == 0 }.take .key 1

/-- a colon; if a key may have started before, its tokens are put in now -/
def value (s : Scanner) : Except Fault Scanner :=
  match s.keys.head?.join with
  | some key =>
    let tokens := s.tokens.take key.position ++ ⟨.key, key.mark, key.mark⟩ :: s.tokens.drop key.position
    let s := { s with tokens, keys := none :: s.keys.drop 1, keyAllowed := false }
    .ok ((s.rollIndent key.mark.column key.position .blockMappingStart key.mark).take .value 1)
  | none =>
    if s.flow = 0 && !s.keyAllowed then .error (s.notAllowed "mapping values")
    else
      let s := s.rollIndent s.mark.column s.tokens.length .blockMappingStart s.mark
      .ok ({ s with keyAllowed := s.flow == 0 }.take .value 1)

def named (s : Scanner) (isAlias : Bool) : Except Fault Scanner :=
  (s.saveKey).bind fun s =>
    let s := { s with keyAllowed := false }
    let name := (s.cursor.rest.drop 1).takeWhile isNameChar
    let behind := s.cursor.rest.drop (name.length + 1)
    let closed := endsWord behind || behind.head?.any fun c => "?:,]\x7d%@\x60".toList.contains c
    if name.isEmpty || !closed then
      .error { problem := "did not find expected alphabetic or numeric character",
               mark := (s.cursor.skip (name.length + 1)).mark,
               context := some (if isAlias then "while scanning an alias" else "while scanning an anchor", s.mark) }
    else
      let name := String.ofList name
      .ok (s.take (if isAlias then .alias name else .anchor name) (name.length + 1))

/-- the full form of the tag that the short form `!!` stands for -/
def coreTag (name : String) : String := "tag:yaml.org,2002:" ++ name

def tag (s : Scanner) : Except Fault Scanner :=
  (s.saveKey).bind fun s =>
    (readTag (0 < s.flow) s.cursor).map fun (tag, stop) =>
      { { s with keyAllowed := false }.emit (.tag tag) s.mark stop.mark with cursor := stop }

/-- put a scalar at the end and go behind it -/
def emitScalar (s : Scanner) (style : Style) (text : List Char) (start stop : Mark) (cursor : Cursor) : Scanner :=
  { s.emit (.scalar ⟨String.ofList text, style, none⟩) start stop with cursor }

def quoted (s : Scanner) (double : Bool) : Except Fault Scanner :=
  (s.saveKey).bind fun s =>
    let start := s.mark
    (readQuoted double start (s.cursor.rest.length + 1) (s.cursor.skip 1) []).map fun (text, stop) =>
      { s with keyAllowed := false }.emitScalar (if double then .doubleQuoted else .singleQuoted) text start stop.mark
        stop

def block (s : Scanner) (isLiteral : Bool) : Except Fault Scanner :=
  (s.removeKey).bind fun s =>
    let start := s.mark
    (readBlock isLiteral s.indent start (s.cursor.skip 1)).map fun (text, stop) =>
      { s with keyAllowed := true }.emitScalar (if isLiteral then .literal else .folded) text start stop.mark stop

def plain (s : Scanner) : Except Fault Scanner :=
  (s.saveKey).bind fun s =>
    let start := s.mark
    (readPlain (0 < s.flow) (s.indent + 1).toNat start (s.cursor.rest.length + 1) s.cursor start [] {}).map fun p =>
      { s with keyAllowed := p.crossed }.emitScalar .plain p.text start p.stop p.cursor

def documentMark (s : Scanner) (kind : TokenKind) : Except Fault Scanner :=
  ((s.unrollIndent (-1)).removeKey).map fun s => { s with keyAllowed := false }.take kind 3

/-- a line in front of a document -/
def directive (s : Scanner) : Except Fault Scanner :=
  ((s.unrollIndent (-1)).removeKey).bind fun s =>
    (readDirective s.cursor).map fun (directive, stop, next) =>
      { { s with keyAllowed := false }.emit (.directive directive) s.mark stop with cursor := next }

def startsPlain (inFlow : Bool) : List Char → Bool
  | [] => false
  | c :: cs =>
    !(isBlank c || isBreak c || "-?:,[]\x7b\x7d#&*!|>'\"%@\x60".toList.contains c) ||
      (c = '-' && !(cs.head?.any isBlank)) ||
      (!inFlow && (c = '?' || c = ':') && !endsWord cs)

/-- read one token, or the end of the document -/
def step (s : Scanner) : Except Fault Scanner :=
  let inFlow := 0 < s.flow
  match s.cursor.rest with
  | [] =>
    let s := if s.mark.column = 0 then s else { s with cursor := ⟨[], s.mark.nextLine 0⟩ }
    ((s.unrollIndent (-1)).removeKey).map fun s => { s with keyAllowed := false }.take .streamEnd 0
  | c :: cs =>
    let ends := endsWord cs
    if s.mark.column = 0 && c = '%' then s.directive
    else if s.cursor.atDocumentMark '-' then s.documentMark .documentStart
    else if s.cursor.atDocumentMark '.' then s.documentMark .documentEnd
    else if c = '[' then s.openFlow .flowSequenceStart
    else if c = '\x7b' then s.openFlow .flowMappingStart
    else if c = ']' then s.closeFlow .flowSequenceEnd
    else if c = '\x7d' then s.closeFlow .flowMappingEnd
    else if c = ',' then (s.removeKey).map fun s => { s with keyAllowed := true }.take .flowEntry 1
    else if c = '-' && ends then s.blockEntry
    else if c = '?' && (inFlow || ends) then s.explicitKey
    else if c = ':' && (inFlow || ends) then s.value
    else if c = '*' then s.named true
    else if c = '&' then s.named false
    else if c = '!' then s.tag
    else if c = '|' && !inFlow then s.block true
    else if c = '>' && !inFlow then s.block false
    else if c = '\x27' then s.quoted false
    else if c = '\x22' then s.quoted true
    else if startsPlain inFlow s.cursor.rest then s.plain
    else .error { problem := "found character that cannot start any token", mark := s.mark,
                  context := some ("while scanning for the next token", s.mark) }

/-- the tokens that are settled: those in front of every place where a key may have started -/
def settled (s : Scanner) : List Token :=
  s.tokens.take (s.keys.foldl (fun n k => match k with
    | some k => min n k.position
    | none => n) s.tokens.length)

end Scanner

/-- the tokens of a document, up to its end or to the first fault -/
structure TokenStream where
  tokens : List Token
  fault : Option Fault

def scanAll : (fuel : Nat) → Scanner → TokenStream
  | 0, s => ⟨s.tokens, none⟩
  | fuel + 1, s =>
    let s := Scanner.skipToToken (fuel + 1) s
    match s.dropStaleKeys with
    | .error fault => ⟨s.settled, some fault⟩
    | .ok s =>
      let s := s.unrollIndent s.mark.column
      match s.step with
      | .error fault => ⟨s.settled, some fault⟩
      | .ok next =>
        if next.tokens.getLast?.any (·.kind = .streamEnd) then ⟨next.tokens, none⟩ else scanAll fuel next

/-- the tokens of a document; each but the last takes at least one character. A text with a control character has
none. -/
def TokenStream.ofString (s : String) : TokenStream :=
  match controlFault? 0 s.toList with
  | some fault => ⟨[], some fault⟩
  | none =>
    let c := Cursor.ofString s
    scanAll (c.rest.length + 2) { cursor := c }

end ScriptTriage.Yaml

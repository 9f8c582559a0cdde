import ScriptTriage.Yaml.Token

/-
The top of a YAML document: a value, or the entries of a mapping. Collections inside it are seen but not entered,
because no setting has one as its value. Entries are given up to the first fault.
-/

namespace ScriptTriage.Yaml

inductive Content where
  | scalar (scalar : Scalar)
  | sequence
  | mapping
deriving DecidableEq, Repr

structure Value where
  content : Content
  mark : Mark
deriving DecidableEq, Repr

/-- the value that is not written -/
def Value.empty (mark : Mark) : Value := ⟨.scalar ⟨"", .plain, none⟩, mark⟩

/-- is it a plain scalar without text? -/
def Value.isEmpty (v : Value) : Bool :=
  match v.content with
  | .scalar s => s.text.isEmpty && s.style = .plain
  | _ => false

/-- a key and its value; the value may be out of reach -/
structure Entry where
  key : Value
  value : Except Fault Value

/-- values that were given a name -/
abbrev Anchors := List (String × Value)

/-- tag handles and what they stand for -/
abbrev Handles := List (String × String)

/-- the handles that every document knows -/
def standardHandles : Handles := [("!", "!"), ("!!", Scanner.coreTag "")]

/-- the tokens that are left, the fault behind them, the named values and the known handles -/
structure Reading where
  tokens : List Token
  fault : Fault
  anchors : Anchors := []
  handles : Handles := standardHandles

/-- the properties of a node: its name, its tag and the place of that, and where they start -/
structure Properties where
  anchor : Option String := none
  tag : Option (WrittenTag × Mark) := none
  start : Option Mark := none

/-- read the properties of a node, each at most once -/
def readProperties : List Token → Properties → List Token × Properties
  | [], p => ([], p)
  | t :: ts, p =>
    match t.kind, p.anchor, p.tag with
    | .anchor name, none, _ => readProperties ts { p with anchor := some name, start := p.start.or t.start }
    | .tag tag, _, none => readProperties ts { p with tag := some (tag, t.start), start := p.start.or t.start }
    | _, _, _ => (t :: ts, p)

/-- the full form of the tag of a node -/
def Properties.fullTag (p : Properties) (handles : Handles) : Except Fault (Option String) :=
  match p.tag with
  | none => .ok none
  | some (tag, mark) =>
    if tag.handle.isEmpty then .ok (some tag.rest)
    else
      match handles.lookup tag.handle with
      | some text => .ok (some (text ++ tag.rest))
      | none =>
        .error { problem := "found undefined tag handle", mark
                 context := some ("while parsing a node", p.start.getD mark) }

/-- does a value start with this token? A dash starts one only where `indentless` allows it. -/
def contentOf? (inFlow indentless : Bool) (tag : Option String) : TokenKind → Option Content
  | .scalar s => some (.scalar { s with tag })
  | .flowSequenceStart => some .sequence
  | .flowMappingStart => some .mapping
  | .blockSequenceStart => if inFlow then none else some .sequence
  | .blockMappingStart => if inFlow then none else some .mapping
  | .blockEntry => if indentless then some .sequence else none
  | _ => none

/-- read a value; of a collection only the start is read -/
def readValue (inFlow indentless : Bool) (r : Reading) : Except Fault (Value × Reading) :=
  match r.tokens with
  | [] => .error r.fault
  | t :: rest =>
    match t.kind with
    | .alias name =>
      match r.anchors.lookup name with
      | some v => .ok (v, { r with tokens := rest })
      | none => .error { problem := "unknown anchor", mark := t.start }
    | _ =>
      match readProperties r.tokens {} with
      | ([], _) => .error r.fault
      | (t :: rest, p) =>
        let mark := p.start.getD t.start
        let name (v : Value) (r : Reading) : Value × Reading :=
          (v, { r with anchors := (p.anchor.map fun a => (a, v)).toList ++ r.anchors })
        (p.fullTag r.handles).bind fun tag =>
          match contentOf? inFlow indentless tag t.kind with
          | some content => .ok (name ⟨content, mark⟩ { r with tokens := rest })
          | none =>
            if p.start.isSome then .ok (name ⟨.scalar ⟨"", .plain, tag⟩, mark⟩ { r with tokens := t :: rest })
            else
              .error { problem := "did not find expected node content", mark := t.start,
                       context := some ("while parsing a " ++ (if inFlow then "flow" else "block") ++ " node", mark) }

/-- read a value that may be missing: before a token in `stops` it is empty, at `mark` or else at that token -/
def readOptional (inFlow : Bool) (stops : List TokenKind) (mark : Option Mark) (r : Reading) :
    Except Fault (Value × Reading) :=
  match r.tokens with
  | [] => .error r.fault
  | t :: _ =>
    if stops.contains t.kind then .ok (.empty (mark.getD t.start), r) else readValue inFlow (!inFlow) r

/-- the tokens of a block mapping in front of which a key or a value is missing -/
def blockStops : List TokenKind := [.key, .value, .blockEnd]

def readEntryValue (inFlow : Bool) (r : Reading) : Except Fault (Value × Reading) :=
  let stops := if inFlow then [.flowEntry, .flowMappingEnd] else blockStops
  match r.tokens with
  | [] => .error r.fault
  | t :: rest =>
    if t.kind = .value then readOptional inFlow stops (if inFlow then none else some t.stop) { r with tokens := rest }
    else .ok (.empty t.start, r)

/-- the entries of a mapping, and how it ends -/
structure Entries where
  entries : List Entry
  ending : Except Fault Reading

def Value.isScalar (v : Value) : Bool :=
  match v.content with
  | .scalar _ => true
  | _ => false

mutual

/-- read the entries of a mapping behind its start -/
def readEntries (inFlow first : Bool) (start : Mark) : (fuel : Nat) → Reading → Entries
  | 0, r => ⟨[], .error r.fault⟩
  | fuel + 1, r =>
    match r.tokens with
    | [] => ⟨[], .error r.fault⟩
    | t :: rest =>
      let behind := { r with tokens := rest }
      if inFlow then
        if t.kind = .flowMappingEnd then ⟨[], .ok behind⟩
        else if first then readFlowEntry start fuel r
        else if t.kind = .flowEntry then
          if (rest.head?.map (·.kind)) = some .flowMappingEnd then ⟨[], .ok { r with tokens := rest.drop 1 }⟩
          else readFlowEntry start fuel behind
        else
          ⟨[], .error { problem := "did not find expected ',' or '\x7d'", mark := t.start,
                        context := some ("while parsing a flow mapping", start) }⟩
      else if t.kind = .key then
        readEntry false start fuel (readOptional false blockStops (some t.stop) behind)
      else if t.kind = .blockEnd then ⟨[], .ok behind⟩
      else
        ⟨[], .error { problem := "did not find expected key", mark := t.start,
                      context := some ("while parsing a block mapping", start) }⟩

def readFlowEntry (start : Mark) : (fuel : Nat) → Reading → Entries
  | 0, r => ⟨[], .error r.fault⟩
  | fuel + 1, r =>
    match r.tokens with
    | [] => ⟨[], .error r.fault⟩
    | t :: rest =>
      if t.kind = .key then
        readEntry true start fuel
          (readOptional true [.value, .flowEntry, .flowMappingEnd] none { r with tokens := rest })
      else readEntry true start fuel (readValue true false r)

/-- go on with an entry whose key was read; behind a collection nothing more is read -/
def readEntry (inFlow : Bool) (start : Mark) : (fuel : Nat) → Except Fault (Value × Reading) → Entries
  | _, .error fault => ⟨[], .error fault⟩
  | 0, .ok (_, r) => ⟨[], .error r.fault⟩
  | fuel + 1, .ok (key, r) =>
    if !key.isScalar then ⟨[⟨key, .ok (.empty key.mark)⟩], .error r.fault⟩
    else
      match readEntryValue inFlow r with
      | .error fault => ⟨[⟨key, .error fault⟩], .error fault⟩
      | .ok (value, r) =>
        if !value.isScalar then ⟨[⟨key, .ok value⟩], .error r.fault⟩
        else
          let more := readEntries inFlow false start fuel r
          ⟨⟨key, .ok value⟩ :: more.entries, more.ending⟩

end

/-- the top of a document -/
inductive Root where
  /-- nothing is written -/
  | empty
  /-- something that is no mapping -/
  | value (value : Value)
  | mapping (mark : Mark) (entries : List Entry)

/-- a document: its top, the fault behind it, and whether another document follows -/
structure Document where
  root : Except Fault Root
  fault : Option Fault := none
  hasMore : Bool := false

/-- the fault of a stream that ends too early -/
def endOfStream : Fault := { problem := "EOF while parsing a value", mark := .origin }

/-- is there another document behind the end of this one? -/
def hasMoreDocuments (tokens : List Token) : Bool :=
  match tokens.dropWhile fun t => t.kind = .documentEnd with
  | [t] => t.kind ≠ .streamEnd
  | _ => true

def finishDocument (root : Root) (r : Reading) : Document :=
  match r.tokens with
  | [] => { root := .ok root, fault := some r.fault }
  | tokens => { root := .ok root, hasMore := hasMoreDocuments tokens }

def readContent (r : Reading) : Document :=
  match readValue false false r with
  | .error fault => { root := .error fault }
  | .ok (v, next) =>
    let mapping (inFlow : Bool) (start : Mark) : Document :=
      let es := readEntries inFlow true start (3 * next.tokens.length + 3) next
      let root := Root.mapping v.mark es.entries
      match es.ending with
      | .ok r => finishDocument root r
      | .error fault => { root := .ok root, fault := some fault }
    match v.content with
    | .mapping =>
      match r.tokens.find? fun t => t.kind = .flowMappingStart || t.kind = .blockMappingStart with
      | some t => mapping (t.kind = .flowMappingStart) t.start
      | none => { root := .ok (.value v) }
    | .sequence => { root := .ok (.value v) }
    | .scalar _ => finishDocument (if v.isEmpty then .empty else .value v) next

/-- take the directives in front of a document: one version at most, which has to be known, and each handle once -/
def readDirectives (versioned : Bool) (declared : Handles) : List Token → Except Fault (Handles × List Token)
  | [] => .ok (declared, [])
  | t :: ts =>
    let refused (problem : String) : Except Fault (Handles × List Token) := .error { problem, mark := t.start }
    match t.kind with
    | .directive (.version major minor) =>
      if versioned then refused "found duplicate %YAML directive"
      else if major ≠ 1 || (minor ≠ 1 && minor ≠ 2) then refused "found incompatible YAML document"
      else readDirectives true declared ts
    | .directive (.handle handle text) =>
      if (declared.lookup handle).isSome then refused "found duplicate %TAG directive"
      else readDirectives versioned ((handle, text) :: declared) ts
    | _ => .ok (declared, t :: ts)

def Token.isDirective (t : Token) : Bool :=
  match t.kind with
  | .directive _ => true
  | _ => false

/-- read a document behind its directives -/
def readExplicit (r : Reading) : Document :=
  match r.tokens with
  | [] => { root := .error r.fault }
  | t :: rest =>
    if t.kind ≠ .documentStart then
      { root := .error { problem := "did not find expected <document start>", mark := t.start } }
    else
      let next := { r with tokens := rest }
      match rest with
      | [] => { root := .error r.fault }
      | t :: _ =>
        if t.isDirective || [.documentStart, .documentEnd, .streamEnd].contains t.kind then finishDocument .empty next
        else readContent next

/-- read the first document -/
def Document.ofString (s : String) : Document :=
  let stream := TokenStream.ofString s
  let tokens := stream.tokens.dropWhile fun t => t.kind = .documentEnd
  let r : Reading := { tokens, fault := stream.fault.getD endOfStream }
  match tokens with
  | [] => { root := .error r.fault }
  | t :: _ =>
    if t.kind = .streamEnd then { root := .ok .empty }
    else if t.isDirective || t.kind = .documentStart then
      match readDirectives false [] tokens with
      | .error fault => { root := .error fault }
      | .ok (declared, rest) => readExplicit { r with tokens := rest, handles := declared ++ standardHandles }
    else readContent r

end ScriptTriage.Yaml

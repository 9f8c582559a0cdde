import ScriptTriage.Options
import ScriptTriage.Yaml.Resolve

/-
Settings from a YAML document: a mapping from the names of the three settings to their values. Entries are taken in
the order of the document and the first problem is told; what is left out keeps its default.
-/

namespace ScriptTriage

/-- the settings that a document may name -/
inductive Setting where
  | leastLength
  | maxDepth
  | strict
deriving DecidableEq, Repr

namespace Setting

def all : List Setting := [.leastLength, .maxDepth, .strict]

def name : Setting → String
  | .leastLength => "shellcode_min_length"
  | .maxDepth => "max_depth"
  | .strict => "reject_syntax_errors"

def ofName? (s : String) : Option Setting := all.find? fun f => f.name == s

/-- the type of its values, in a message -/
def expected : Setting → String
  | .leastLength | .maxDepth => "usize"
  | .strict => "a boolean"

def allNames : String := ", ".intercalate (all.map fun f => "\x60" ++ f.name ++ "\x60")

end Setting

/-- why a document gives no settings -/
inductive LoadFault where
  /-- the document breaks the rules of YAML -/
  | broken (fault : Yaml.Fault)
  /-- the document is no mapping -/
  | notMapping (found : Yaml.Meaning) (mark : Yaml.Mark)
  /-- a key that is no text -/
  | keyType (found : Yaml.Meaning) (mark : Yaml.Mark)
  | unknownField (name : String) (mark : Yaml.Mark)
  | duplicateField (field : Setting) (mark : Yaml.Mark)
  | valueType (field : Setting) (found : Yaml.Meaning) (mark : Yaml.Mark)
  | moreDocuments
  | invalid (fault : OptionFault)
deriving DecidableEq, Repr

namespace LoadFault

/-- a value of the wrong type, in a message; a tag that is not met is told in place of the type -/
def mismatch (found : Yaml.Meaning) (expected : String) : String :=
  match found with
  | .mistagged _ wanted => "invalid value: " ++ found.describe ++ ", expected " ++ wanted
  | _ => "invalid type: " ++ found.describe ++ ", expected " ++ expected

def message : LoadFault → String
  | .broken fault => fault.message
  | .notMapping found mark => mismatch found "struct AnalysisOptions" ++ mark.suffix
  | .keyType found mark => mismatch found "field identifier" ++ mark.suffix
  | .unknownField name mark =>
    "unknown field \x60" ++ name ++ "\x60, expected one of " ++ Setting.allNames ++ mark.suffix
  | .duplicateField field mark => "duplicate field \x60" ++ field.name ++ "\x60" ++ mark.suffix
  | .valueType field found mark => field.name ++ ": " ++ mismatch found field.expected ++ mark.suffix
  | .moreDocuments => "deserializing from YAML containing more than one document is not supported"
  | .invalid fault => fault.message

/-- as a failure; settings that were read but make no sense are told as such -/
def failure (f : LoadFault) : Failure :=
  match f with
  | .invalid fault => fault.failure
  | f => .configuration ("invalid options: " ++ f.message)

end LoadFault

namespace Options

/-- change one setting to the value of an entry -/
def assign (o : Options) (field : Setting) (v : Yaml.Value) : Except LoadFault Options :=
  let refused : LoadFault := .valueType field v.meaning v.mark
  match field with
  | .leastLength =>
    match v.toNat? with
    | some n => .ok { o with leastLength := n }
    | none => .error refused
  | .maxDepth =>
    match v.toNat? with
    | some n => .ok { o with maxDepth := n }
    | none => .error refused
  | .strict =>
    match v.toBool? with
    | some b => .ok { o with strict := b }
    | none => .error refused

def settingOf (key : Yaml.Value) : Except LoadFault Setting :=
  match key.content with
  | .scalar s =>
    match Setting.ofName? s.text with
    | some field => .ok field
    | none => .error (.unknownField s.text key.mark)
  | _ => .error (.keyType key.meaning key.mark)

/-- take entries in turn; `seen` are the settings that were named before, `mark` is where the mapping starts -/
def ofEntries (mark : Yaml.Mark) (seen : List Setting) (o : Options) : List Yaml.Entry → Except LoadFault Options
  | [] => .ok o
  | e :: es =>
    match settingOf e.key with
    | .error fault => .error fault
    | .ok field =>
      if seen.contains field then .error (.duplicateField field mark)
      else
        match e.value with
        | .error fault => .error (.broken fault)
        | .ok v =>
          match o.assign field v with
          | .error fault => .error fault
          | .ok o => ofEntries mark (field :: seen) o es

def ofRoot : Yaml.Root → Except LoadFault Options
  | .empty => .ok {}
  | .value v => .error (.notMapping v.meaning v.mark)
  | .mapping mark entries => ofEntries mark [] {} entries

/-- the settings in a document, before they are validated -/
def ofDocument (d : Yaml.Document) : Except LoadFault Options :=
  match d.root with
  | .error fault => .error (.broken fault)
  | .ok root =>
    match ofRoot root, d.fault with
    | .error fault, _ => .error fault
    | .ok _, some fault => .error (.broken fault)
    | .ok o, none => if d.hasMore then .error .moreDocuments else .ok o

/-- the settings in a document, if they are valid -/
def load (d : Yaml.Document) : Except LoadFault Options :=
  match ofDocument d with
  | .error fault => .error fault
  | .ok o =>
    match o.fault? with
    | some fault => .error (.invalid fault)
    | none => .ok o

def ofYaml (text : String) : Except LoadFault Options := load (.ofString text)

end Options

end ScriptTriage

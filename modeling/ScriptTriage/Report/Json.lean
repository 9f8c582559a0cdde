import ScriptTriage.Text.Hex

/-
JSON documents and their indented form: two blanks for each level, one entry on a line, and nothing between the
brackets of an empty list or object. Only the quote, the backslash and characters below U+0020 are escaped.
-/

namespace ScriptTriage

/-- the JSON documents that reports are made of -/
inductive Json where
  | string (value : String)
  | number (value : Nat)
  | array (items : List Json)
  | object (fields : List (String × Json))
deriving Inhabited

namespace Json

/-- a character inside a string -/
def escapeChar (c : Char) : List Char :=
  if c = '\x22' then ['\\', '\x22']
  else if c = '\\' then ['\\', '\\']
  else if c = '\x08' then ['\\', 'b']
  else if c = '\x0c' then ['\\', 'f']
  else if c = '\n' then ['\\', 'n']
  else if c = '\r' then ['\\', 'r']
  else if c = '\t' then ['\\', 't']
  else if c.toNat < 0x20 then ['\\', 'u', '0', '0'] ++ Text.hexOfByte (UInt8.ofNat c.toNat)
  else [c]

def quote (s : String) : String := String.ofList ('\x22' :: s.toList.flatMap escapeChar ++ ['\x22'])

/-- the blanks in front of a line -/
def margin (depth : Nat) : String := String.ofList (List.replicate (2 * depth) ' ')

mutual

/-- the indented form at a depth -/
def render (depth : Nat) : Json → String
  | .string s => quote s
  | .number n => toString n
  | .array [] => "[]"
  | .array (item :: items) =>
    "[\n" ++ margin (depth + 1) ++ render (depth + 1) item ++ renderItems (depth + 1) items ++ "\n" ++ margin depth ++ "]"
  | .object [] => "\x7b\x7d"
  | .object ((key, value) :: fields) =>
    "\x7b\n" ++ margin (depth + 1) ++ quote key ++ ": " ++ render (depth + 1) value ++
      renderFields (depth + 1) fields ++ "\n" ++ margin depth ++ "\x7d"

/-- the items behind the first one -/
def renderItems (depth : Nat) : List Json → String
  | [] => ""
  | item :: items => ",\n" ++ margin depth ++ render depth item ++ renderItems depth items

/-- the fields behind the first one -/
def renderFields (depth : Nat) : List (String × Json) → String
  | [] => ""
  | (key, value) :: fields =>
    ",\n" ++ margin depth ++ quote key ++ ": " ++ render depth value ++ renderFields depth fields

end

/-- the indented form, without a line end behind it -/
def pretty (j : Json) : String := j.render 0

end Json

end ScriptTriage

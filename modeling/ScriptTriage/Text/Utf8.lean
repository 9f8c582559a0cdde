/-
Reading bytes as text. Scripts come from hostile places, so a byte sequence that is no UTF-8 still has to be read:
every maximal piece that could have begun a character, but does not go on as one, becomes one U+FFFD.
-/

namespace ScriptTriage.Text

def isContinuation (b : UInt8) : Bool := 0x80 ≤ b.toNat && b.toNat < 0xC0

/-- how many bytes a character has that starts with this one, and the range of its second byte -/
def leadByte (b : UInt8) : Option (Nat × Nat × Nat) :=
  let n := b.toNat
  if 0xC2 ≤ n && n ≤ 0xDF then some (2, 0x80, 0xBF)
  else if n = 0xE0 then some (3, 0xA0, 0xBF)
  else if (0xE1 ≤ n && n ≤ 0xEC) || n = 0xEE || n = 0xEF then some (3, 0x80, 0xBF)
  else if n = 0xED then some (3, 0x80, 0x9F)
  else if n = 0xF0 then some (4, 0x90, 0xBF)
  else if 0xF1 ≤ n && n ≤ 0xF3 then some (4, 0x80, 0xBF)
  else if n = 0xF4 then some (4, 0x80, 0x8F)
  else none

def tailBits (b : UInt8) : Nat := b.toNat - 0x80

/-- one step of decoding: the character read, or nothing for a broken piece, and how many bytes it takes -/
def decodeStep (b : UInt8) (rest : List UInt8) : Option Char × Nat :=
  if b.toNat < 0x80 then (some (Char.ofNat b.toNat), 1)
  else
    match leadByte b with
    | none => (none, 1)
    | some (width, lo, hi) =>
      match rest with
      | [] => (none, 1)
      | b1 :: rest1 =>
        if b1.toNat < lo || hi < b1.toNat then (none, 1)
        else if width = 2 then (some (Char.ofNat ((b.toNat - 0xC0) * 0x40 + tailBits b1)), 2)
        else
          match rest1 with
          | [] => (none, 2)
          | b2 :: rest2 =>
            if !isContinuation b2 then (none, 2)
            else if width = 3 then
              (some (Char.ofNat ((b.toNat - 0xE0) * 0x1000 + tailBits b1 * 0x40 + tailBits b2)), 3)
            else
              match rest2 with
              | [] => (none, 3)
              | b3 :: _ =>
                if !isContinuation b3 then (none, 3)
                else
                  (some (Char.ofNat ((b.toNat - 0xF0) * 0x40000 + tailBits b1 * 0x1000 + tailBits b2 * 0x40 +
                    tailBits b3)), 4)

/-- the pieces of a byte sequence: a character, or nothing for a broken piece -/
def decodePieces : List UInt8 → List (Option Char)
  | [] => []
  | b :: rest =>
    let step := decodeStep b rest
    step.1 :: decodePieces (rest.drop (step.2 - 1))
termination_by bytes => bytes.length
decreasing_by simp only [List.length_cons, List.length_drop]; omega

/-- read bytes as text, with U+FFFD for every broken piece -/
def decodeLossy (bytes : List UInt8) : String :=
  String.ofList ((decodePieces bytes).map fun piece => piece.getD '\uFFFD')

/-- read bytes as text if all of them are UTF-8 -/
def decodeStrict (bytes : List UInt8) : Option String :=
  ((decodePieces bytes).mapM id).map String.ofList

def encodeUtf8 (s : String) : List UInt8 := s.toUTF8.toList

end ScriptTriage.Text

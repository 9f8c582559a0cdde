/-
Payload candidates: string literals long enough to hide machine code. The test is deliberately coarse, a minimal
number of characters, and a string that fits one byte per character is kept as those bytes, so that signatures can
be matched against it.
-/

namespace ScriptTriage

/-- a string literal that is long enough to be a payload -/
inductive Candidate where
  /-- every character fits one byte -/
  | bytes (data : List UInt8)
  /-- some character lies above U+00FF, so the text is kept -/
  | text (value : String)
deriving DecidableEq, Repr, Inhabited

namespace Candidate

/-- the length, in bytes or in characters -/
def length : Candidate → Nat
  | .bytes data => data.length
  | .text value => value.length

def isEmpty (c : Candidate) : Bool := c.length == 0

/-- the payload as bytes; text is encoded as UTF-8 -/
def toBytes : Candidate → List UInt8
  | .bytes data => data
  | .text value => value.toUTF8.toList

def encoding : Candidate → String
  | .bytes _ => "latin1"
  | .text _ => "text"

def fitsByte (c : Char) : Bool := c.toNat ≤ 0xFF

/-- one byte per character where that is possible, the text itself otherwise -/
def ofString (s : String) : Candidate :=
  if s.toList.all fitsByte then .bytes (s.toList.map fun c => UInt8.ofNat c.toNat) else .text s

/-- has the string at least `least` characters? Counting its bytes first settles most short strings. -/
def isLongEnough (s : String) (least : Nat) : Bool :=
  if s.utf8ByteSize < least then false else decide (least ≤ s.length)

/-- the candidate in a string, if it is long enough -/
def extract? (s : String) (least : Nat) : Option Candidate :=
  if isLongEnough s least then some (ofString s) else none

end Candidate

end ScriptTriage

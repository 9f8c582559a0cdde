/-
UTF-16 code units. A string literal of a script denotes a sequence of code units, in which halves of surrogate
pairs may stand alone; decoding it to text joins the pairs and puts U+FFFD for every half without a partner.
-/

namespace ScriptTriage.Text

abbrev CodeUnit := UInt16

/-- the one or two code units of a character -/
def unitsOfChar (c : Char) : List CodeUnit :=
  let n := c.toNat
  if n < 0x10000 then [UInt16.ofNat n]
  else [UInt16.ofNat (0xD800 + (n - 0x10000) / 0x400), UInt16.ofNat (0xDC00 + (n - 0x10000) % 0x400)]

def units (cs : List Char) : List CodeUnit := cs.flatMap unitsOfChar

/-- the first half of a pair -/
def isHighSurrogate (u : CodeUnit) : Bool := 0xD800 ≤ u.toNat && u.toNat < 0xDC00

/-- the second half of a pair -/
def isLowSurrogate (u : CodeUnit) : Bool := 0xDC00 ≤ u.toNat && u.toNat < 0xE000

/-- what stands for a half without a partner -/
def replacement : Char := '\uFFFD'

/-- the character that two halves make -/
def joinSurrogates (high low : CodeUnit) : Char :=
  Char.ofNat (0x10000 + (high.toNat - 0xD800) * 0x400 + (low.toNat - 0xDC00))

/-- join the pairs and replace every half without a partner -/
def decodeUnits : List CodeUnit → List Char
  | [] => []
  | [u] => if isHighSurrogate u || isLowSurrogate u then [replacement] else [Char.ofNat u.toNat]
  | u :: v :: rest =>
    if isHighSurrogate u then
      if isLowSurrogate v then joinSurrogates u v :: decodeUnits rest
      else replacement :: decodeUnits (v :: rest)
    else if isLowSurrogate u then replacement :: decodeUnits (v :: rest)
    else Char.ofNat u.toNat :: decodeUnits (v :: rest)

end ScriptTriage.Text

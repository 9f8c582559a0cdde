/-
Character classes of scripts. Blanks separate tokens anywhere; names may hold any character that is neither a blank,
nor a control character, nor used by an operator or bracket. The search for automatic semicolons knows fewer blanks
than the rest of the reader: the ASCII ones.
-/

namespace ScriptTriage.Reader

def isAsciiSpace (c : Char) : Bool := c = ' ' || ('\x09' ≤ c && c ≤ '\x0d')

def isAsciiLetter (c : Char) : Bool := ('a' ≤ c && c ≤ 'z') || ('A' ≤ c && c ≤ 'Z')

def isAsciiDigit (c : Char) : Bool := '0' ≤ c && c ≤ '9'

/-- a line feed or one of the two separators of Unicode -/
def isLineBreak (c : Char) : Bool := c = '\n' || c = '\u2028' || c = '\u2029'

/-- characters that separate tokens: white space, the byte-order mark, the word joiner and the zero-width space -/
def isBlank (c : Char) : Bool :=
  isAsciiSpace c || c = '\u0085' || c = '\u00a0' || c = '\u1680' || ('\u2000' ≤ c && c ≤ '\u200b') ||
    c = '\u2028' || c = '\u2029' || c = '\u202f' || c = '\u205f' || c = '\u2060' || c = '\u3000' || c = '\ufeff'

/-- the ASCII characters of operators, brackets and quotes -/
def marks : List Char := ":;\x60\"'@#.,|^&<=>+-*/\\%?!~()[]\x7b\x7d".toList

/-- a character that may continue a name -/
def isNamePart (c : Char) : Bool := '\x20' < c && !isBlank c && !marks.contains c

/-- a character that may start a name -/
def isNameStart (c : Char) : Bool := isNamePart c && !isAsciiDigit c

end ScriptTriage.Reader

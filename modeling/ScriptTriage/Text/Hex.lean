/-
Bytes as text: two lower-case hexadecimal digits for each.
-/

namespace ScriptTriage.Text

/-- the digit for a number below sixteen -/
def hexDigit (n : Nat) : Char := ("0123456789abcdef".toList)[n]?.getD '0'

def hexOfByte (b : UInt8) : List Char := [hexDigit (b.toNat / 16), hexDigit (b.toNat % 16)]

def hex (bytes : List UInt8) : String := String.ofList (bytes.flatMap hexOfByte)

end ScriptTriage.Text

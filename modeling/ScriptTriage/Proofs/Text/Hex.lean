import ScriptTriage.Number.Radix
import ScriptTriage.Text.Hex

/-
Bytes are read back from their digits: `unhex?` takes the digits in pairs, and undoes `hex` (`unhex?_hex`).
-/

namespace ScriptTriage.Text

open ScriptTriage.Number

/-- the bytes that pairs of digits spell -/
def unhex? : List Char → Option (List UInt8)
  | [] => some []
  | [_] => none
  | high :: low :: rest =>
    (digitOf 16 high).bind fun h => (digitOf 16 low).bind fun l =>
      (unhex? rest).map fun bytes => UInt8.ofNat (h * 16 + l) :: bytes

theorem digitOf_hexDigit {n : Nat} (h : n < 16) : digitOf 16 (hexDigit n) = some n := by
  have hall : ∀ n < 16, digitOf 16 (hexDigit n) = some n := by decide
  exact hall n h

theorem unhex?_hexOfByte_append (b : UInt8) (rest : List Char) :
    unhex? (hexOfByte b ++ rest) = (unhex? rest).map (b :: ·) := by
  have hb : b.toNat < 256 := b.toNat_lt
  have hhigh := digitOf_hexDigit (n := b.toNat / 16) (by omega)
  have hlow := digitOf_hexDigit (n := b.toNat % 16) (by omega)
  have hbyte : UInt8.ofNat (b.toNat / 16 * 16 + b.toNat % 16) = b := by
    rw [Nat.div_add_mod', UInt8.ofNat_toNat]
  rw [hexOfByte, List.cons_append, List.singleton_append, unhex?, hhigh, hlow, Option.bind_some, Option.bind_some, hbyte]

theorem unhex?_hex (bytes : List UInt8) : unhex? (hex bytes).toList = some bytes := by
  rw [hex, String.toList_ofList]
  induction bytes with
  | nil => rfl
  | cons b bytes ih => rw [List.flatMap_cons, unhex?_hexOfByte_append, ih, Option.map_some]

end ScriptTriage.Text

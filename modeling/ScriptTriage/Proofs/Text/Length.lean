import ScriptTriage.Proofs.Text.Utf16
import ScriptTriage.Text.Escape

/-
The length of a decoded literal. Whatever an escape sequence looks like, it stands for no more characters than it has:
most arms of the decoder give one unit, or the units of one character; an escape that cannot be read stands for its own
text without the backslash. Halves of pairs from neighbouring segments may still join, and that only makes the text
shorter, so what holds for each segment holds for all of them together.

- `length_decodeUnits_escapeUnits_le`: one escape sequence, well formed or not.
- `length_decodeSegments_le`: the content of a literal.
-/

namespace ScriptTriage.Text

def Segment.written : Segment → String
  | .fragment text => text
  | .escape sequence => sequence

/-- the characters of a content as it is written -/
def writtenAll (segments : List Segment) : List Char := segments.flatMap (·.written.toList)

/-! ## One escape sequence -/

theorem length_decodeUnits_singleton (u : CodeUnit) : (decodeUnits [u]).length = 1 := by
  unfold decodeUnits
  split
  · rfl
  · rfl

theorem length_decodeUnits_unitsOfChar (c : Char) : (decodeUnits (unitsOfChar c)).length = 1 := by
  have h := decodeUnits_unitsOfChar_append c []
  rw [List.append_nil] at h
  rw [h]
  rfl

theorem length_decodeUnits_units (cs : List Char) : (decodeUnits (units cs)).length = cs.length := by
  rw [decodeUnits_units]

theorem length_decodeUnits_unicodeUnits_le {body : List Char} (hbody : body ≠ []) (rest : List Char) :
    (decodeUnits (unicodeUnits rest body)).length ≤ body.length := by
  have hpos := List.length_pos_iff.2 hbody
  fun_cases unicodeUnits rest body with
  | case1 inner _ c _ =>
    -- a code point in braces
    rw [length_decodeUnits_unitsOfChar]
    exact hpos
  | case3 _ unit _ =>
    rw [length_decodeUnits_singleton]
    exact hpos
  | case2 | case4 => exact Nat.le_of_eq (length_decodeUnits_units body)

theorem length_decodeUnits_escapeBodyUnits_le (first : Char) (rest : List Char) :
    (decodeUnits (escapeBodyUnits first rest)).length ≤ (first :: rest).length := by
  have hpos : 1 ≤ (first :: rest).length := Nat.succ_le_succ (Nat.zero_le _)
  fun_cases escapeBodyUnits first rest with
  | case8 | case11 =>
    -- digits that spell no unit are kept
    exact Nat.le_of_eq (length_decodeUnits_units (first :: rest))
  | case9 => exact length_decodeUnits_unicodeUnits_le (List.cons_ne_nil first rest) rest
  | case12 => exact Nat.zero_le _
  | case13 =>
    rw [length_decodeUnits_unitsOfChar]
    exact hpos
  | _ =>
    rw [length_decodeUnits_singleton]
    exact hpos

/-- no escape sequence, well formed or not, stands for more characters than it has -/
theorem length_decodeUnits_escapeUnits_le (sequence : List Char) :
    (decodeUnits (escapeUnits sequence)).length ≤ sequence.length := by
  fun_cases escapeUnits sequence with
  | case1 first rest => exact Nat.le_succ_of_le (length_decodeUnits_escapeBodyUnits_le first rest)
  | case2 => exact Nat.zero_le _
  | case3 => exact Nat.le_of_eq (length_decodeUnits_units sequence)

/-! ## The content of a literal -/

theorem Segment.length_decodeUnits_units_le (s : Segment) : (decodeUnits s.units).length ≤ s.written.toList.length := by
  cases s with
  | fragment text => exact Nat.le_of_eq (Text.length_decodeUnits_units text.toList)
  | escape sequence => exact length_decodeUnits_escapeUnits_le sequence.toList

theorem length_decodeUnits_flatMap_le (segments : List Segment) :
    (decodeUnits (segments.flatMap Segment.units)).length ≤ (writtenAll segments).length := by
  induction segments with
  | nil => exact Nat.le_refl 0
  | cons s segments ih =>
    have hjoin := length_decodeUnits_append_le s.units (segments.flatMap Segment.units)
    have hs := s.length_decodeUnits_units_le
    rw [writtenAll] at ih ⊢
    rw [List.flatMap_cons, List.flatMap_cons, List.length_append]
    omega

theorem length_decodeSegments_le (segments : List Segment) :
    (decodeSegments segments).length ≤ (writtenAll segments).length := by
  rw [decodeSegments, String.length_ofList]
  exact length_decodeUnits_flatMap_le segments

end ScriptTriage.Text

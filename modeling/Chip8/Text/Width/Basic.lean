import Chip8.Text.Hangul
import Chip8.Text.Ligature
import Chip8.Text.Width.Table

/-!
# Widths of characters

The cells that a character takes when it stands alone.
-/

namespace Chip8

namespace Width

/-- A character without a cell of its own. The joiner of Tifinagh is a mark but
shown when it joins nothing. -/
def IsZero (c : Char) : Prop :=
  (c ∈ Marks.extending ∧ c ≠ Ligature.tifinaghJoiner) ∨ Hangul.IsSilent c ∨ c ∈ silent

instance : DecidablePred IsZero := fun c => by
  unfold IsZero; infer_instance

/-- A mark through which lam and alef are joined. -/
def IsTransparent (c : Char) : Prop := IsZero c ∧ c ∉ apart

instance : DecidablePred IsTransparent := fun c => by
  unfold IsTransparent; infer_instance

/-- Two Khmer signs stand for more than one letter. -/
def ofChar (c : Char) : Nat :=
  if c.toNat = 0x17A4 then 2
  else if c.toNat = 0x17D8 then 3
  else if IsZero c then 0
  else if c ∈ wide then 2
  else 1

end Width

end Chip8

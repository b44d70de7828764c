import Chip8.Word

/-!
# Hexadecimal text

Numbers are shown in base sixteen with upper-case digits, padded with zeros to
a least width. A wider number keeps all its digits, so nothing is cut off.
-/

namespace Chip8

namespace Hex

/-- The digits of `n` in base sixteen, at least `width` of them. -/
def digits (width n : Nat) : List Char :=
  ((Nat.toDigits 16 n).map Char.toUpper).leftpad width '0'

/-- The number as text with the base mark in front. -/
def text (width n : Nat) : String :=
  "0x" ++ String.ofList (digits width n)

/-- An address: three digits cover the memory, a fourth appears past its end. -/
def address (a : Address) : String := text 3 a.toNat

def byte (b : UInt8) : String := text 2 b.toNat

def word (w : Word) : String := text 4 w.toNat

end Hex

/-- The name of a register: `V0` to `VF`. -/
def Register.name (r : Register) : String :=
  "V" ++ String.ofList (Hex.digits 1 r.val)

end Chip8

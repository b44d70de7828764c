/-!
# Unsigned decimal numbers

A 64-bit number is written with at least one decimal digit, leading zeros and
one plus sign allowed, and must not exceed the largest 64-bit value.
-/

namespace Chip8

namespace Unsigned

def digit? (c : Char) : Option Nat :=
  if c.isDigit then some (c.toNat - '0'.toNat) else none

/-- The value of a list of digits that follow a number `n`. -/
def digits? (n : Nat) : List Char → Option Nat
  | [] => some n
  | c :: rest => (digit? c).bind fun d => digits? (10 * n + d) rest

/-- The digits of the text, without its sign. -/
def unsigned : List Char → List Char
  | '+' :: rest => rest
  | s => s

/-- The number that a text stands for. -/
def ofText? (s : String) : Option UInt64 :=
  match unsigned s.toList with
  | [] => none
  | digits =>
    (digits? 0 digits).bind fun n =>
      if n < UInt64.size then some (UInt64.ofNat n) else none

end Unsigned

end Chip8

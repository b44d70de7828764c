import Chip8.Instruction.Encoding

/-!
# Program images

A program as a list of instructions, and as the bytes that are loaded: two for
each instruction, the high one first.
-/

namespace Chip8

namespace Instruction

/-- The bytes of one instruction. -/
def bytes (i : Instruction) : List UInt8 := [i.encode.high, i.encode.low]

/-- The bytes of a list of instructions. -/
def assemble : List Instruction → List UInt8
  | [] => []
  | i :: rest => i.bytes ++ assemble rest

@[simp] theorem assemble_nil : assemble [] = [] := rfl

@[simp] theorem assemble_cons (i : Instruction) (l : List Instruction) :
    assemble (i :: l) = i.bytes ++ assemble l := rfl

@[simp] theorem length_assemble (l : List Instruction) :
    (assemble l).length = 2 * l.length := by
  induction l with
  | nil => rfl
  | cons i l ih => simp [bytes, ih]; omega

theorem getElem?_assemble_high (l : List Instruction) (k : Nat) :
    (assemble l)[2 * k]? = l[k]?.map (·.encode.high) := by
  induction l generalizing k with
  | nil => simp
  | cons i l ih =>
    cases k with
    | zero => rfl
    | succ k => exact ih k

theorem getElem?_assemble_low (l : List Instruction) (k : Nat) :
    (assemble l)[2 * k + 1]? = l[k]?.map (·.encode.low) := by
  induction l generalizing k with
  | nil => simp
  | cons i l ih =>
    cases k with
    | zero => rfl
    | succ k => exact ih k

end Instruction

end Chip8

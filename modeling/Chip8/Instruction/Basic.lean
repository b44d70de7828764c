import Chip8.Word

/-!
# Instructions

The instruction set, grouped by what an instruction does: one constructor for
all conditional skips, with the condition as data, and one for all operations
between two registers, with the operation as data. The form of the word is
given beside each constructor.

Operands are as wide as the machine's cells. An instruction that comes from a
word fits its fields (`Instruction.WellFormed`).
-/

namespace Chip8

/-- What a conditional skip tests. -/
inductive Condition where
  /-- Written `3XNN`. -/
  | byteEq (x : Register) (nn : UInt8)
  /-- Written `4XNN`. -/
  | byteNe (x : Register) (nn : UInt8)
  /-- Written `5XY0`. -/
  | registerEq (x y : Register)
  /-- Written `9XY0`. -/
  | registerNe (x y : Register)
  /-- Written `EX9E`. -/
  | keyDown (x : Register)
  /-- Written `EXA1`. -/
  | keyUp (x : Register)
deriving Repr, DecidableEq

/-- The operations between two registers, written `8XY_` with the code of the
operation as last digit. -/
inductive Arith where
  | copy
  | or
  | and
  | xor
  | add
  | sub
  | shiftRight
  /-- Subtraction with its operands exchanged. -/
  | subFrom
  | shiftLeft
deriving Repr, DecidableEq

inductive Instruction where
  /-- Written `00E0`. -/
  | clear
  /-- Written `00EE`. -/
  | ret
  /-- Written `1NNN`. -/
  | jump (target : Address)
  /-- Written `2NNN`. -/
  | call (target : Address)
  | skip (condition : Condition)
  /-- Written `6XNN`. -/
  | setByte (x : Register) (nn : UInt8)
  /-- Written `7XNN`. -/
  | addByte (x : Register) (nn : UInt8)
  | arith (op : Arith) (x y : Register)
  /-- Written `ANNN`. -/
  | setIndex (address : Address)
  /-- Written `BNNN`. -/
  | jumpOffset (base : Address)
  /-- Written `CXNN`. -/
  | random (x : Register) (mask : UInt8)
  /-- Written `DXYN`. -/
  | draw (x y : Register) (rows : UInt8)
  /-- Written `FX07`. -/
  | readDelay (x : Register)
  /-- Written `FX0A`. -/
  | awaitKey (x : Register)
  /-- Written `FX15`. -/
  | setDelay (x : Register)
  /-- Written `FX18`. -/
  | setSound (x : Register)
  /-- Written `FX1E`. -/
  | addIndex (x : Register)
  /-- Written `FX29`. -/
  | glyph (x : Register)
  /-- Written `FX33`. -/
  | decimal (x : Register)
  /-- Written `FX55`. -/
  | save (x : Register)
  /-- Written `FX65`. -/
  | restore (x : Register)
deriving Repr, DecidableEq

namespace Instruction

/-- The operands fit the fields of a word: addresses have three digits and a
sprite has at most fifteen rows. -/
def WellFormed : Instruction → Prop
  | jump a | call a | setIndex a | jumpOffset a => a.toNat < 4096
  | draw _ _ rows => rows.toNat < 16
  | _ => True

instance : DecidablePred WellFormed := fun i => by
  cases i <;> (simp only [WellFormed]; infer_instance)

end Instruction

end Chip8

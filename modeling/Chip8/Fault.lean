import Chip8.Text.Hex

/-!
# Faults

Why a program cannot be loaded, or why a machine cannot go on. A fault names
its cause; the wording is `Fault.message`.
-/

namespace Chip8

/-- The cause of a failed load or a failed cycle. -/
inductive Fault where
  | emptyProgram
  | programTooLarge (size capacity : Nat)
  /-- No whole word lies at this program counter. -/
  | outOfBounds (pc : Address)
  | unknownInstruction (word : Word)
  /-- The call stack is full and cannot keep this return address. -/
  | stackOverflow (returnTo : Address)
deriving Repr, DecidableEq

namespace Fault

def message : Fault → String
  | emptyProgram => "ROM is empty"
  | programTooLarge size capacity =>
      s!"ROM is too large ({size} bytes), max size is {capacity} bytes"
  | outOfBounds pc => "Program counter out of bounds: " ++ Hex.address pc
  | unknownInstruction word => "Unknown instruction: " ++ Hex.word word
  | stackOverflow returnTo => "Call stack overflow at " ++ Hex.address returnTo

end Fault

end Chip8

import Chip8.Instruction.Basic
import Chip8.Text.Hex

/-!
# Assembly text

An instruction is shown as a mnemonic and its operands, separated by commas.
Several instructions share a mnemonic and are told apart by their operands:
an operand is a register, a named part of the machine, or a number whose width
says whether it is an address or a byte.
-/

namespace Chip8

/-- One operand as it is written. -/
inductive Operand where
  | register (r : Register)
  | address (a : Address)
  | byte (b : UInt8)
  /-- A number of sprite rows, in decimal. -/
  | count (n : UInt8)
  | index
  /-- The memory that the index points to. -/
  | memory
  | delayTimer
  | soundTimer
  | key
  | glyph
  | decimal
deriving Repr, DecidableEq

def Operand.text : Operand → String
  | register r => r.name
  | address a => Hex.address a
  | byte b => Hex.byte b
  | count n => toString n.toNat
  | index => "I"
  | memory => "[I]"
  | delayTimer => "DT"
  | soundTimer => "ST"
  | key => "K"
  | glyph => "F"
  | decimal => "B"

def Arith.mnemonic : Arith → String
  | copy => "LD"
  | or => "OR"
  | and => "AND"
  | xor => "XOR"
  | add => "ADD"
  | sub => "SUB"
  | shiftRight => "SHR"
  | subFrom => "SUBN"
  | shiftLeft => "SHL"

namespace Condition

def mnemonic : Condition → String
  | byteEq .. | registerEq .. => "SE"
  | byteNe .. | registerNe .. => "SNE"
  | keyDown _ => "SKP"
  | keyUp _ => "SKNP"

def operands : Condition → List Operand
  | byteEq x nn | byteNe x nn => [.register x, .byte nn]
  | registerEq x y | registerNe x y => [.register x, .register y]
  | keyDown x | keyUp x => [.register x]

end Condition

namespace Instruction

def mnemonic : Instruction → String
  | clear => "CLS"
  | ret => "RET"
  | jump _ | jumpOffset _ => "JP"
  | call _ => "CALL"
  | skip condition => condition.mnemonic
  | addByte .. | addIndex _ => "ADD"
  | arith op _ _ => op.mnemonic
  | random .. => "RND"
  | draw .. => "DRW"
  | setByte .. | setIndex _ | readDelay _ | awaitKey _ | setDelay _ | setSound _
  | glyph _ | decimal _ | save _ | restore _ => "LD"

def operands : Instruction → List Operand
  | clear | ret => []
  | jump a | call a => [.address a]
  | skip condition => condition.operands
  | setByte x nn | addByte x nn | random x nn => [.register x, .byte nn]
  | arith _ x y => [.register x, .register y]
  | setIndex a => [.index, .address a]
  | jumpOffset a => [.register .first, .address a]
  | draw x y rows => [.register x, .register y, .count rows]
  | readDelay x => [.register x, .delayTimer]
  | awaitKey x => [.register x, .key]
  | setDelay x => [.delayTimer, .register x]
  | setSound x => [.soundTimer, .register x]
  | addIndex x => [.index, .register x]
  | glyph x => [.glyph, .register x]
  | decimal x => [.decimal, .register x]
  | save x => [.memory, .register x]
  | restore x => [.register x, .memory]

/-- The instruction in assembly language. -/
def text (i : Instruction) : String :=
  match i.operands with
  | [] => i.mnemonic
  | ops => i.mnemonic ++ " " ++ ", ".intercalate (ops.map Operand.text)

end Instruction

end Chip8

import Chip8.Fault
import Chip8.Instruction.Basic

/-!
# Instructions as words

`Instruction.encode` writes an instruction as a word and `Instruction.decode?`
reads one back. Not every word is an instruction; `Instruction.decode` names
the word that is none.
-/

namespace Chip8

namespace Word

/-! ## Building words from fields -/

/-- The word with first digit `op` and the low three digits of `a`. -/
def ofAddress (op : Nat) (a : Address) : Word :=
  UInt16.ofNat (op * 4096 + a.toNat % 4096)

/-- The word with first digit `op`, register `x` and last byte `nn`. -/
def ofByte (op : Nat) (x : Register) (nn : UInt8) : Word :=
  UInt16.ofNat (op * 4096 + x.val * 256 + nn.toNat)

/-- The word with first digit `op`, registers `x` and `y` and last digit `n`. -/
def ofRegisters (op : Nat) (x y : Register) (n : Nat) : Word :=
  UInt16.ofNat (op * 4096 + x.val * 256 + y.val * 16 + n % 16)

end Word

namespace Arith

/-- The last digit of the word. -/
def code : Arith → Nat
  | copy => 0x0
  | or => 0x1
  | and => 0x2
  | xor => 0x3
  | add => 0x4
  | sub => 0x5
  | shiftRight => 0x6
  | subFrom => 0x7
  | shiftLeft => 0xE

def ofCode? : Nat → Option Arith
  | 0x0 => some copy
  | 0x1 => some or
  | 0x2 => some and
  | 0x3 => some xor
  | 0x4 => some add
  | 0x5 => some sub
  | 0x6 => some shiftRight
  | 0x7 => some subFrom
  | 0xE => some shiftLeft
  | _ => none

@[simp] theorem ofCode?_code (op : Arith) : ofCode? op.code = some op := by
  cases op <;> rfl

end Arith

def Condition.encode : Condition → Word
  | byteEq x nn => .ofByte 0x3 x nn
  | byteNe x nn => .ofByte 0x4 x nn
  | registerEq x y => .ofRegisters 0x5 x y 0x0
  | registerNe x y => .ofRegisters 0x9 x y 0x0
  | keyDown x => .ofByte 0xE x 0x9E
  | keyUp x => .ofByte 0xE x 0xA1

namespace Instruction

/-- The word of an instruction. Operands that are too wide lose their high
digits. -/
def encode : Instruction → Word
  | clear => 0x00E0
  | ret => 0x00EE
  | jump target => .ofAddress 0x1 target
  | call target => .ofAddress 0x2 target
  | skip condition => condition.encode
  | setByte x nn => .ofByte 0x6 x nn
  | addByte x nn => .ofByte 0x7 x nn
  | arith op x y => .ofRegisters 0x8 x y op.code
  | setIndex address => .ofAddress 0xA address
  | jumpOffset base => .ofAddress 0xB base
  | random x mask => .ofByte 0xC x mask
  | draw x y rows => .ofRegisters 0xD x y rows.toNat
  | readDelay x => .ofByte 0xF x 0x07
  | awaitKey x => .ofByte 0xF x 0x0A
  | setDelay x => .ofByte 0xF x 0x15
  | setSound x => .ofByte 0xF x 0x18
  | addIndex x => .ofByte 0xF x 0x1E
  | glyph x => .ofByte 0xF x 0x29
  | decimal x => .ofByte 0xF x 0x33
  | save x => .ofByte 0xF x 0x55
  | restore x => .ofByte 0xF x 0x65

/-- The instructions of the family `FX__`, by their last byte. -/
def ofMiscCode? (x : Register) : Nat → Option Instruction
  | 0x07 => some (readDelay x)
  | 0x0A => some (awaitKey x)
  | 0x15 => some (setDelay x)
  | 0x18 => some (setSound x)
  | 0x1E => some (addIndex x)
  | 0x29 => some (glyph x)
  | 0x33 => some (decimal x)
  | 0x55 => some (save x)
  | 0x65 => some (restore x)
  | _ => none

/-- The instruction that a word stands for. The first digit selects the
family. -/
def decode? (w : Word) : Option Instruction :=
  match w.opcode with
  | 0x0 =>
    match w.nnn.toNat with
    | 0x0E0 => some clear
    | 0x0EE => some ret
    | _ => none
  | 0x1 => some (jump w.nnn)
  | 0x2 => some (call w.nnn)
  | 0x3 => some (skip (.byteEq w.x w.nn))
  | 0x4 => some (skip (.byteNe w.x w.nn))
  | 0x5 => if w.n = 0 then some (skip (.registerEq w.x w.y)) else none
  | 0x6 => some (setByte w.x w.nn)
  | 0x7 => some (addByte w.x w.nn)
  | 0x8 => (Arith.ofCode? w.n.toNat).map (arith · w.x w.y)
  | 0x9 => if w.n = 0 then some (skip (.registerNe w.x w.y)) else none
  | 0xA => some (setIndex w.nnn)
  | 0xB => some (jumpOffset w.nnn)
  | 0xC => some (random w.x w.nn)
  | 0xD => some (draw w.x w.y w.n)
  | 0xE =>
    match w.nn.toNat with
    | 0x9E => some (skip (.keyDown w.x))
    | 0xA1 => some (skip (.keyUp w.x))
    | _ => none
  | 0xF => ofMiscCode? w.x w.nn.toNat
  | _ => none

def decode (w : Word) : Except Fault Instruction :=
  match decode? w with
  | some i => .ok i
  | none => .error (.unknownInstruction w)

theorem decode_eq_ok_iff {w : Word} {i : Instruction} :
    decode w = .ok i ↔ decode? w = some i := by
  unfold decode
  cases decode? w <;> simp

theorem decode_eq_error_iff {w : Word} {f : Fault} :
    decode w = .error f ↔ decode? w = none ∧ f = .unknownInstruction w := by
  unfold decode
  cases decode? w <;> simp [eq_comm]

end Instruction

end Chip8

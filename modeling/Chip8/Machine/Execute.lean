import Chip8.Machine.Basic

/-!
# Executing an instruction

`Machine.execute` is the meaning of each instruction. The program counter
already points past the instruction when it runs, so a skip moves it on by one
more instruction, and waiting for a key moves it back.

An instruction with a flag writes its result first and the flag second, so the
flag wins where the flag register is also the target.
-/

namespace Chip8

/-- The condition of a skip, tested on the machine as it is. -/
def Condition.holds (m : Machine) : Condition → Bool
  | byteEq x nn => m.registers.get x == nn
  | byteNe x nn => m.registers.get x != nn
  | registerEq x y => m.registers.get x == m.registers.get y
  | registerNe x y => m.registers.get x != m.registers.get y
  | keyDown x => m.keypad.isDown (m.registers.get x)
  | keyUp x => !m.keypad.isDown (m.registers.get x)

namespace Arith

/-- The value of an operation, modulo 256, on the bytes `a` of the first
register and `b` of the second. Shifts are of the second. -/
def result (a b : UInt8) : Arith → UInt8
  | copy => b
  | or => a ||| b
  | and => a &&& b
  | xor => a ^^^ b
  | add => a + b
  | sub => a - b
  | shiftRight => b >>> 1
  | subFrom => b - a
  | shiftLeft => b <<< 1

/-- The flag of an operation: the carry of a sum, the absence of a borrow in a
difference, the bit that a shift moves out. -/
def flag? (a b : UInt8) : Arith → Option Bool
  | copy | or | and | xor => none
  | add => some (256 ≤ a.toNat + b.toNat)
  | sub => some (b.toNat ≤ a.toNat)
  | shiftRight => some (b.toNat % 2 = 1)
  | subFrom => some (a.toNat ≤ b.toNat)
  | shiftLeft => some (128 ≤ b.toNat)

/-- Writes the value of an operation, then its flag if it has one. -/
def apply (op : Arith) (x y : Register) (v : Registers) : Registers :=
  let a := v.get x
  let b := v.get y
  let v := v.set x (op.result a b)
  match op.flag? a b with
  | some flag => v.setFlag flag
  | none => v

end Arith

/-- The three decimal digits of a byte. -/
def decimalDigits (b : UInt8) : List UInt8 := [b / 100, b / 10 % 10, b % 10]

namespace Machine

def execute (m : Machine) : Instruction → Outcome
  | .clear => .quiet { m with display := .blank }
  | .ret =>
    match m.stack.pop? with
    | some (returnTo, stack) => .quiet { m with pc := returnTo, stack := stack }
    | none => (Outcome.quiet m).announce (.emptyReturn m.pc)
  | .jump target => .quiet { m with pc := target }
  | .call target =>
    match m.stack.push m.pc with
    | .ok stack => .quiet { m with pc := target, stack := stack }
    | .error fault => .failed m fault
  | .skip condition => .quiet (if condition.holds m then m.stepOver else m)
  | .setByte x nn => .quiet (m.setRegister x nn)
  | .addByte x nn => .quiet (m.setRegister x (m.registers.get x + nn))
  | .arith op x y => .quiet { m with registers := op.apply x y m.registers }
  | .setIndex address => .quiet { m with index := address }
  | .jumpOffset base => .quiet { m with pc := base + (m.registers.get .first).toUInt16 }
  | .random x mask =>
    .quiet
      { m with
        registers := m.registers.set x (m.random.byte &&& mask)
        random := m.random.advance }
  | .draw x y rows =>
    let column := (m.registers.get x).toNat % Display.width
    let row := (m.registers.get y).toNat % Display.height
    let sprite := m.memory.sprite m.index rows
    .quiet
      { m with
        registers := m.registers.setFlag (m.display.collides column row sprite)
        display := m.display.draw column row sprite }
  | .readDelay x => .quiet (m.setRegister x m.timers.delay)
  | .awaitKey x =>
    match m.keypad.first? with
    | some key => .quiet (m.setRegister x key)
    -- back to this instruction until a key is down
    | none => .quiet { m with pc := m.pc - 2 }
  | .setDelay x => .quiet { m with timers.delay := m.registers.get x }
  | .setSound x => .quiet { m with timers.sound := m.registers.get x }
  | .addIndex x =>
    let sum := m.index.toNat + (m.registers.get x).toNat
    -- the flag records an overflow and is never taken back
    .quiet
      { m with
        index := UInt16.ofNat (sum % Memory.size)
        registers := if Memory.size ≤ sum then m.registers.setFlag true else m.registers }
  | .glyph x => .quiet { m with index := Memory.glyphAddress (m.registers.get x) }
  | .decimal x => m.store m.index (decimalDigits (m.registers.get x))
  | .save x => m.store m.index (m.registers.takeTo x)
  | .restore x =>
    .quiet { m with registers := m.registers.setFrom 0 (m.memory.readList m.index (x.val + 1)) }

end Machine

end Chip8

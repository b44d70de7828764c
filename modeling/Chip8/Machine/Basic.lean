import Chip8.CallStack
import Chip8.Display
import Chip8.Keypad
import Chip8.Log
import Chip8.Memory.Basic
import Chip8.Random.Generator
import Chip8.Registers
import Chip8.Timers

/-!
# The machine

All that an instruction can read or change. The program counter and the index
are plain addresses: both can point past the memory, and it is the access that
wraps or fails.
-/

namespace Chip8

structure Machine where
  memory : Memory
  registers : Registers
  pc : Address
  index : Address
  stack : CallStack
  timers : Timers
  display : Display
  keypad : Keypad
  random : Generator
deriving DecidableEq

/-- What one step of a machine leads to: the machine after it, what was
reported, in order, and the fault if the step failed. -/
structure Outcome where
  machine : Machine
  events : List Event
  fault? : Option Fault
deriving DecidableEq

namespace Outcome

/-- A step that succeeds and reports nothing. -/
def quiet (m : Machine) : Outcome := ⟨m, [], none⟩

/-- A step that fails and reports nothing. -/
def failed (m : Machine) (fault : Fault) : Outcome := ⟨m, [], some fault⟩

/-- The same outcome with one more event, reported before all others. -/
def announce (o : Outcome) (e : Event) : Outcome := { o with events := e :: o.events }

@[simp] theorem machine_quiet (m : Machine) : (quiet m).machine = m := rfl

@[simp] theorem fault?_quiet (m : Machine) : (quiet m).fault? = none := rfl

@[simp] theorem machine_failed (m : Machine) (fault : Fault) : (failed m fault).machine = m := rfl

@[simp] theorem fault?_failed (m : Machine) (fault : Fault) :
    (failed m fault).fault? = some fault := rfl

@[simp] theorem machine_announce (o : Outcome) (e : Event) :
    (o.announce e).machine = o.machine := rfl

@[simp] theorem fault?_announce (o : Outcome) (e : Event) :
    (o.announce e).fault? = o.fault? := rfl

end Outcome

namespace Machine

/-- A machine without a program. -/
def initial (random : Generator) (created : Time) : Machine where
  memory := .initial
  registers := .zero
  pc := Memory.programStart
  index := 0
  stack := .empty
  timers := .initial created
  display := .blank
  keypad := .none
  random := random

instance : Inhabited Machine := ⟨initial default 0⟩

/-- Moves the program counter past one instruction. -/
def stepOver (m : Machine) : Machine := { m with pc := m.pc + 2 }

/-- Counts the timers down if they are due. -/
def tick (m : Machine) (t : Time) : Machine := { m with timers := m.timers.update t }

def setRegister (m : Machine) (r : Register) (b : UInt8) : Machine :=
  { m with registers := m.registers.set r b }

/-- Writes bytes into memory from `start` on. -/
def store (m : Machine) (start : Address) (bytes : List UInt8) : Outcome where
  machine := { m with memory := m.memory.writeList start bytes }
  events := (Memory.refused start bytes).map fun (position, byte) => .fontWrite position byte
  fault? := none

/-- Replaces the keypad by one on which the given keys are down. -/
def setKeys (m : Machine) (codes : List UInt8) : Outcome where
  machine := { m with keypad := .ofCodes codes }
  events := (Keypad.strayCodes codes).map .strayKey
  fault? := none

end Machine

end Chip8

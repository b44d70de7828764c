import Chip8.Instruction.Encoding
import Chip8.Machine.Execute

/-!
# Cycles

A cycle counts the timers down if they are due, fetches the word at the program
counter, steps over it, decodes it and executes it. It fails at whichever of
these fails first, and keeps what was done before.

`Machine.advance` repeats the cycle up to the first failure; `Machine.run`
follows any sequence of cycles and key changes, failures included.
-/

namespace Chip8

namespace Machine

/-- A machine with a program at its start. -/
def load (program : List UInt8) (random : Generator) (created : Time) : Except Fault Machine :=
  match Memory.initial.load program with
  | .ok memory => .ok { initial random created with memory := memory }
  | .error fault => .error fault

/-- What is reported of a program that was loaded. -/
def loadEvent (program : List UInt8) : Event := .loaded program.length Memory.programStart

/-- The instruction that the next cycle will execute. -/
def peek (m : Machine) : Except Fault Instruction :=
  match m.memory.fetch m.pc with
  | .ok word => Instruction.decode word
  | .error fault => .error fault

/-- Runs the word that was fetched. -/
def runWord (m : Machine) (word : Word) : Outcome :=
  match Instruction.decode word with
  | .ok i => (m.stepOver.execute i).announce (.decoded m.pc word i)
  | .error fault => (Outcome.failed m.stepOver fault).announce (.unknownInstruction m.pc word)

/-- One cycle at time `t`. -/
def cycle (m : Machine) (t : Time) : Outcome :=
  match m.memory.fetch m.pc with
  | .ok word => (m.tick t).runWord word
  | .error fault => .failed (m.tick t) fault

/-! ## Many cycles -/

/-- A failing cycle: where the program counter stood before it, and why it
failed. -/
structure Halt where
  pc : Address
  fault : Fault
deriving Repr, DecidableEq

/-- How far a number of cycles came. -/
structure Progress where
  machine : Machine
  /-- What was reported, in order. -/
  events : Array Event
  /-- How many cycles succeeded. -/
  completed : Nat
  halt? : Option Halt

/-- Runs up to the given number of cycles and stops at the first that fails.
The clock gives each cycle its time, by its number from zero on. Events below
the threshold are dropped. -/
def advance (threshold : Severity) (clock : Nat → Time) (count : Nat) (m : Machine) :
    Progress :=
  go count m #[] 0
where
  go : Nat → Machine → Array Event → Nat → Progress
  | 0, m, events, completed => ⟨m, events, completed, none⟩
  | count + 1, m, events, completed =>
    let o := m.cycle (clock completed)
    let events := events.appendList (o.events.filter (·.Visible threshold))
    match o.fault? with
    | some fault => ⟨o.machine, events, completed, some ⟨m.pc, fault⟩⟩
    | none => go count o.machine events (completed + 1)

/-- One thing that can happen to a running machine. -/
inductive Action where
  | cycle (t : Time)
  | setKeys (codes : List UInt8)
deriving Repr, DecidableEq

def act (m : Machine) : Action → Outcome
  | .cycle t => m.cycle t
  | .setKeys codes => m.setKeys codes

/-- The machine after a sequence of actions, whether or not they succeed. -/
def run (m : Machine) : List Action → Machine
  | [] => m
  | a :: rest => (m.act a).machine.run rest

@[simp] theorem run_nil (m : Machine) : m.run [] = m := rfl

@[simp] theorem run_cons (m : Machine) (a : Action) (l : List Action) :
    m.run (a :: l) = (m.act a).machine.run l := rfl

theorem run_append (m : Machine) (l₁ l₂ : List Action) :
    m.run (l₁ ++ l₂) = (m.run l₁).run l₂ := by
  induction l₁ generalizing m with
  | nil => rfl
  | cons a l ih => simp [ih]

end Machine

end Chip8

import Chip8.Fault
import Chip8.Instruction.Assembly

/-!
# The log

What a machine and its front end report while they run. An event is data; its
wording is `Event.message`, and its severity decides whether a reader who set a
threshold gets to see it.
-/

namespace Chip8

inductive Severity where
  | trace
  | debug
  | info
  | warn
deriving Repr, DecidableEq

namespace Severity

def rank : Severity → Nat
  | trace => 0
  | debug => 1
  | info => 2
  | warn => 3

def name : Severity → String
  | trace => "TRACE"
  | debug => "DEBUG"
  | info => "INFO"
  | warn => "WARN"

end Severity

inductive Event where
  | loaded (size : Nat) (start : Address)
  /-- The instruction at `pc` is about to be executed. -/
  | decoded (pc : Address) (word : Word) (instruction : Instruction)
  | unknownInstruction (pc : Address) (word : Word)
  /-- A return with nothing to return to; `pc` is where execution goes on. -/
  | emptyReturn (pc : Address)
  /-- A write that the font refused. -/
  | fontWrite (position : Fin 4096) (byte : UInt8)
  /-- A key code that belongs to no key. -/
  | strayKey (code : UInt8)
  | sessionStarted (path : String) (size perFrame : Nat)
  | sessionQuit (pc : Address)
deriving Repr, DecidableEq

namespace Event

def severity : Event → Severity
  | loaded .. | unknownInstruction .. | emptyReturn _ => .debug
  | decoded .. => .trace
  | fontWrite .. | strayKey _ => .warn
  | sessionStarted .. | sessionQuit _ => .info

def message : Event → String
  | loaded size start => s!"Loaded {size} byte ROM at " ++ Hex.address start
  | decoded pc word i =>
      Hex.address pc ++ ": " ++ String.ofList (Hex.digits 4 word.toNat) ++ "  " ++ i.text
  | unknownInstruction pc word =>
      (Fault.unknownInstruction word).message ++ " at " ++ Hex.address pc
  | emptyReturn pc => "Return with empty call stack at " ++ Hex.address pc
  | fontWrite position byte =>
      "Ignoring write of " ++ Hex.byte byte ++ " into font region at "
        ++ Hex.text 3 position.val
  | strayKey code => "Ignoring out of range key code " ++ Hex.byte code
  | sessionStarted path size perFrame =>
      s!"Loaded {path} ({size} bytes), {perFrame} instructions per frame"
  | sessionQuit pc => "Quit at " ++ Hex.address pc

/-- The event as one line of a log. -/
def line (e : Event) : String := e.severity.name ++ " " ++ e.message

/-- The event is at least as severe as the threshold. -/
def Visible (threshold : Severity) (e : Event) : Prop := threshold.rank ≤ e.severity.rank

instance (threshold : Severity) : DecidablePred (Visible threshold) := fun e => by
  unfold Visible; infer_instance

end Event

end Chip8

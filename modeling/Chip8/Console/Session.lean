import Chip8.Console.Bell
import Chip8.Console.Directory
import Chip8.Console.Keyboard
import Chip8.Console.Settings
import Chip8.Machine.Cycle

/-!
# Sessions

A session runs a machine frame by frame. In each frame the held keys age, the
keys typed since the last frame are read, the keypad is set once, the machine
runs the frame's instructions, and the bell hears whether the sound is on.

Escape ends the session before anything else happens in its frame. A cycle that
fails ends it at once, and the bell hears nothing of that frame.
-/

namespace Chip8

/-- Why a session does not start. -/
inductive StartError where
  | unreadable (path : String) (cause : ReadError)
  | unloadable (path : String) (cause : Fault)
deriving Repr, DecidableEq

def StartError.message : StartError → String
  | unreadable path cause => "Failed to read ROM " ++ path ++ ": " ++ cause.text
  | unloadable path cause => "Failed to load ROM " ++ path ++ ": " ++ cause.message

def Machine.Halt.message (h : Machine.Halt) : String :=
  "Emulation halted at " ++ Hex.address h.pc ++ ": " ++ h.fault.message

structure Session where
  settings : Settings
  machine : Machine
  held : HeldKeys
  bell : Bell

namespace Session

/-- Starts a session with the contents of the ROM, as far as they could be read. -/
def start (settings : Settings) (contents : Except ReadError (List UInt8))
    (random : Generator) (created : Time) : Except StartError (Session × List Event) :=
  match contents with
  | .error cause => .error (.unreadable settings.rom cause)
  | .ok program =>
    match Machine.load program random created with
    | .error cause => .error (.unloadable settings.rom cause)
    | .ok machine =>
      .ok (⟨settings, machine, .none, .silent⟩,
        [Machine.loadEvent program,
          .sessionStarted settings.rom program.length settings.perFrame])

/-! ## One frame -/

/-- How a session ends. -/
inductive Ending where
  | quit
  | halted (halt : Machine.Halt)
deriving Repr, DecidableEq

/-- What one frame leads to. -/
structure Frame where
  session : Session
  /-- What was reported, in order. -/
  events : List Event
  /-- The bell rang at the end of the frame. -/
  rang : Bool
  ending? : Option Ending

/-- Escape is among the keys typed. -/
def Quits (typed : List KeyEvent) : Prop := ∃ e ∈ typed, e.key = .escape

instance : DecidablePred Quits := fun typed => by
  unfold Quits; infer_instance

/-- The session with the keypad as it stands in a frame. -/
def readKeys (s : Session) (typed : List KeyEvent) : Session × List Event :=
  let held := s.held.age.noteAll typed
  let o := s.machine.setKeys held.toList
  ({ s with held := held, machine := o.machine }, o.events)

/-- Runs the instructions of a frame whose keys have been read. -/
def runCycles (s : Session) (threshold : Severity) (clock : Nat → Time) : Frame :=
  let p := s.machine.advance threshold clock s.settings.perFrame
  let s' := { s with machine := p.machine }
  match p.halt? with
  | some halt => ⟨s', p.events.toList, false, some (.halted halt)⟩
  | none =>
    let sounding : Bool := 0 < p.machine.timers.sound
    ⟨{ s' with bell := s.bell.hear sounding }, p.events.toList, s.bell.Rings sounding, none⟩

/-- One frame. The clock gives each of its cycles a time. Events below the
threshold are dropped. -/
def frame (s : Session) (threshold : Severity) (clock : Nat → Time)
    (typed : List KeyEvent) : Frame :=
  if Quits typed then ⟨s, [.sessionQuit s.machine.pc], false, some .quit⟩
  else
    let (s, events) := s.readKeys typed
    let f := s.runCycles threshold clock
    { f with events := events ++ f.events }

/-! ## Frame after frame -/

/-- What a frame is given: a time for each of its cycles, and what the terminal
has reported since the frame before. -/
structure Input where
  clock : Nat → Time
  reported : List TerminalEvent

def Input.typed (i : Input) : List KeyEvent := TerminalEvent.keys i.reported

/-- How far a session came. -/
structure Played where
  session : Session
  /-- What was reported, in order. -/
  events : List Event
  /-- How many frames came to their end. -/
  completed : Nat
  /-- How often the bell rang. -/
  bells : Nat
  ending? : Option Ending

/-- One frame for each input, up to the frame that ends the session. -/
def play (s : Session) (threshold : Severity) : List Input → Played
  | [] => ⟨s, [], 0, 0, none⟩
  | i :: rest =>
    let f := s.frame threshold i.clock i.typed
    match f.ending? with
    | some ending => ⟨f.session, f.events, 0, f.rang.toNat, some ending⟩
    | none =>
      let o := f.session.play threshold rest
      ⟨o.session, f.events ++ o.events, o.completed + 1, f.rang.toNat + o.bells, o.ending?⟩

end Session

end Chip8

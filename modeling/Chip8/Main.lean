import Chip8.Console.Screen
import Chip8.Console.Session

/-!
# The program

Runs a ROM on a terminal that hands over characters as they are typed and shows
none of them itself. The size of the terminal is taken from the variables
`COLUMNS` and `LINES`.

Nothing is decided here: a frame is `Session.frame`, a picture `Screen.draw`.
-/

namespace Chip8

namespace Terminal

def clear : String := "\x1b[2J\x1b[H"

def home : String := "\x1b[H"

def bell : String := "\x07"

def write (text : String) : IO Unit := do
  let output ← IO.getStdout
  output.putStr text
  output.flush

/-- Nothing is written for a covered cell: the character that covers it moves over
both. -/
def present (rows : List Row) : IO Unit :=
  write (home ++ "\r\n".intercalate (rows.map fun r => String.ofList r.flatten))

/-- A size from the environment, or a usual one. -/
def extent (name : String) (usual : Nat) : IO Nat := do
  return ((← IO.getEnv name).bind String.toNat?).getD usual

/-- Keeps what is typed until it is asked for, byte by byte since a longer read
would wait for more. Nothing is read after the key that ends a session, so that
the program can end then. -/
partial def collect (input : IO.FS.Stream) (typed : IO.Ref (List KeyEvent)) : IO Unit := do
  let bytes ← input.read 1
  unless bytes.isEmpty do
    let events := KeyEvent.ofText (bytes.toList.map fun b => Char.ofNat b.toNat)
    typed.modify (· ++ events)
    unless Session.Quits events do
      collect input typed

end Terminal

namespace Console

def readRom (path : String) : IO (Except ReadError (List UInt8)) := do
  try
    return .ok (← IO.FS.readBinFile path).toList
  catch e =>
    match e with
    | .noFileOrDirectory .. => return .error .notFound
    | .inappropriateType _ 21 _ => return .error .isDirectory
    | .inappropriateType .. => return .error .notDirectory
    | _ => return .error (.other (toString e))

/-- The generator of a session that nobody gave a seed. -/
def freshRandom : IO Generator := do
  let bytes ← IO.getRandomBytes 8
  return .ofSeed (bytes.toList.foldl (fun n b => 256 * n + b.toUInt64) 0)

def fail (message : String) (status : UInt32) : IO UInt32 := do
  IO.eprintln ("Error: " ++ message)
  return status

/-- Runs frames until the session ends. All cycles of a frame happen at the time
at which it begins. -/
partial def play (s : Session) (typed : IO.Ref (List KeyEvent)) (w h : Nat) : IO UInt32 := do
  let begun ← IO.monoNanosNow
  let f := s.frame .warn (fun _ => begun) (← typed.swap [])
  match f.ending? with
  | some .quit =>
    Terminal.write Terminal.clear
    return 0
  | some (.halted halt) =>
    Terminal.write Terminal.clear
    fail halt.message 1
  | none =>
    if f.rang then Terminal.write Terminal.bell
    Terminal.present (Screen.draw s.settings.romName f.session.machine w h)
    let spent := (← IO.monoNanosNow) - begun
    IO.sleep (UInt32.ofNat ((1000000000 / s.settings.frameRate.toNat - spent) / 1000000))
    play f.session typed w h

def run (settings : Settings) : IO UInt32 := do
  let contents ← readRom settings.rom
  let random ← match settings.seed? with
    | some seed => pure (.ofSeed seed)
    | none => freshRandom
  match Session.start settings contents random (← IO.monoNanosNow) with
  | .error e => fail e.message 1
  | .ok (session, _) =>
    let typed ← IO.mkRef []
    let _ ← IO.asTask (Terminal.collect (← IO.getStdin) typed) .dedicated
    Terminal.write Terminal.clear
    play session typed (← Terminal.extent "COLUMNS" 80) (← Terminal.extent "LINES" 44)

end Console

end Chip8

open Chip8 in
def main (args : List String) : IO UInt32 := do
  match Arguments.parse args with
  | .error request =>
    match request with
    | .helpRequested | .versionRequested =>
      IO.println request.message
      return 0
    | _ => Console.fail request.message 2
  | .ok arguments =>
    match Settings.ofArguments arguments with
    | .error e => Console.fail e.message 1
    | .ok settings => Console.run settings

import Chip8.Text.Unsigned

/-!
# The command line

One ROM and three options that take a number, in any order. An option's value
follows it as the next argument or behind an equals sign; after `--` nothing is
an option any more.

A value that is an argument of its own, and the ROM, wait until what follows
shows that they are complete: they are checked when the next option begins, the
ROM is given, or the line ends. An argument that has no place on the line at all
is reported before anything that still waits.
-/

namespace Chip8

/-- The options that take a number. -/
inductive Setting where
  | ips
  | frameRate
  | seed
deriving Repr, DecidableEq

/-- Why a command line yields no arguments. -/
inductive UsageError where
  | helpRequested
  | versionRequested
  /-- An option that does not exist, or a second ROM. -/
  | unknownArgument
  /-- An option without a value, or an empty ROM. -/
  | missingValue
  /-- A value where none is taken. -/
  | unexpectedValue
  | malformedNumber
  | repeatedOption
  | missingRom
deriving Repr, DecidableEq

def UsageError.message : UsageError → String
  | helpRequested => "Run a CHIP-8 ROM in the terminal."
  | versionRequested => "0.1.0"
  | unknownArgument => "unexpected argument found"
  | missingValue => "a value is required but none was supplied"
  | unexpectedValue => "a value was supplied to an option that takes none"
  | malformedNumber => "a value is no unsigned 64-bit number"
  | repeatedOption => "an option cannot be used multiple times"
  | missingRom => "the path to the ROM was not provided"

/-- What a command line says. -/
structure Arguments where
  rom : String
  ips : UInt64
  frameRate : UInt64
  seed? : Option UInt64
deriving Repr, DecidableEq

namespace Arguments

def defaultIps : UInt64 := 700

def defaultFrameRate : UInt64 := 60

/-! ## One argument -/

/-- An argument by its form alone. -/
inductive Token where
  /-- The mark after which nothing is an option. -/
  | separator
  | option (setting : Setting) (attached : Option String)
  | help
  | version
  /-- An option that takes no value, with a value. -/
  | overfull
  | unknown
  | plain (text : String)
deriving Repr, DecidableEq

def setting? : List Char → Option Setting
  | ['i', 'p', 's'] => some .ips
  | ['f', 'r', 'a', 'm', 'e', '-', 'r', 'a', 't', 'e'] => some .frameRate
  | ['s', 'e', 'e', 'd'] => some .seed
  | _ => none

/-- The name of a long option, and its value if an equals sign follows. -/
def splitEquals (s : List Char) : List Char × Option String :=
  match s.dropWhile (· ≠ '=') with
  | [] => (s, none)
  | _ :: value => (s.takeWhile (· ≠ '='), some (String.ofList value))

def Token.ofLong (s : List Char) : Token :=
  let (name, attached) := splitEquals s
  match setting? name with
  | some setting => .option setting attached
  | none =>
    if name = "help".toList then (if attached.isSome then .overfull else .help)
    else if name = "version".toList then (if attached.isSome then .overfull else .version)
    else .unknown

/-- Of letters behind a single dash the first decides. -/
def Token.ofText (text : String) : Token :=
  match text.toList with
  | ['-', '-'] => .separator
  | '-' :: '-' :: rest => .ofLong rest
  | '-' :: 'h' :: _ => .help
  | '-' :: 'V' :: _ => .version
  | ['-'] => .plain text
  | '-' :: _ => .unknown
  | _ => .plain text

/-! ## The line -/

/-- What has been given and checked. -/
structure Draft where
  rom? : Option String
  ips? : Option UInt64
  frameRate? : Option UInt64
  seed? : Option UInt64
deriving Repr, DecidableEq

def Draft.empty : Draft := ⟨none, none, none, none⟩

def Draft.get? (d : Draft) : Setting → Option UInt64
  | .ips => d.ips?
  | .frameRate => d.frameRate?
  | .seed => d.seed?

def Draft.set (d : Draft) (value : UInt64) : Setting → Draft
  | .ips => { d with ips? := some value }
  | .frameRate => { d with frameRate? := some value }
  | .seed => { d with seed? := some value }

@[simp] theorem Draft.rom?_set (d : Draft) (value : UInt64) (setting : Setting) :
    (d.set value setting).rom? = d.rom? := by
  cases setting <;> rfl

theorem Draft.get?_set_of_ne {s s' : Setting} (hne : s ≠ s') (d : Draft) (value : UInt64) :
    (d.set value s).get? s' = d.get? s' := by
  cases s <;> cases s' <;> first | rfl | exact absurd rfl hne

theorem Draft.set_comm {s s' : Setting} (hne : s ≠ s') (d : Draft) (value value' : UInt64) :
    (d.set value s).set value' s' = (d.set value' s').set value s := by
  cases s <;> cases s' <;> first | rfl | exact absurd rfl hne

/-- Takes up a value. A repetition is reported before a value that is no number. -/
def Draft.give (d : Draft) (setting : Setting) (text : String) : Except UsageError Draft :=
  if (d.get? setting).isSome then .error .repeatedOption
  else
    match Unsigned.ofText? text with
    | some value => .ok (d.set value setting)
    | none => .error .malformedNumber

theorem Draft.give_of_some {d : Draft} {setting : Setting} {text : String} {value : UInt64}
    (hd : d.get? setting = none) (htext : Unsigned.ofText? text = some value) :
    d.give setting text = .ok (d.set value setting) := by
  simp [give, hd, htext]

theorem Draft.rom?_of_give {d d' : Draft} {setting : Setting} {text : String}
    (h : d.give setting text = .ok d') : d'.rom? = d.rom? := by
  unfold give at h
  split at h
  · cases h
  · split at h
    · cases h
      exact d.rom?_set _ setting
    · cases h

/-- What was given last and is not checked yet. -/
inductive Waiting where
  | nothing
  /-- An option whose value has not come. -/
  | option (setting : Setting)
  | value (setting : Setting) (text : String)
  | rom (text : String)
deriving Repr, DecidableEq

structure Line where
  draft : Draft
  waiting : Waiting
deriving Repr, DecidableEq

namespace Line

def empty : Line := ⟨.empty, .nothing⟩

/-- Checks what waits. -/
def settle (l : Line) : Except UsageError Draft :=
  match l.waiting with
  | .nothing => .ok l.draft
  | .option _ => .error .missingValue
  | .value setting text => l.draft.give setting text
  | .rom text =>
    if text.isEmpty then .error .missingValue else .ok { l.draft with rom? := some text }

def HasRom (l : Line) : Prop :=
  l.draft.rom?.isSome ∨ l.waiting matches .rom _

instance (l : Line) : Decidable l.HasRom := by
  unfold HasRom; infer_instance

/-- An argument that is no option and no option's value. -/
def addRom (l : Line) (text : String) : Except UsageError Line :=
  if l.HasRom then .error .unknownArgument
  else
    match l.settle with
    | .ok draft => .ok ⟨draft, .rom text⟩
    | .error e => .error e

def addOption (l : Line) (setting : Setting) (attached : Option String) :
    Except UsageError Line :=
  match l.settle with
  | .error e => .error e
  | .ok draft =>
    match attached with
    | none => .ok ⟨draft, .option setting⟩
    | some text =>
      match draft.give setting text with
      | .ok draft => .ok ⟨draft, .nothing⟩
      | .error e => .error e

def addPlain (l : Line) (text : String) : Except UsageError Line :=
  match l.waiting with
  | .option setting => .ok { l with waiting := .value setting text }
  | _ => l.addRom text

/-- A request that ends the reading, unless what waits is wrong. -/
def stop (l : Line) (request : UsageError) : UsageError :=
  match l.settle with
  | .ok _ => request
  | .error e => e

/-- Adds arguments none of which is an option. -/
def addRoms (l : Line) : List String → Except UsageError Line
  | [] => .ok l
  | text :: rest =>
    match l.addRom text with
    | .ok l => l.addRoms rest
    | .error e => .error e

def addAll (l : Line) : List String → Except UsageError Line
  | [] => .ok l
  | text :: rest =>
    match Token.ofText text with
    | .separator => l.addRoms rest
    | .option setting attached =>
      match l.addOption setting attached with
      | .ok l => l.addAll rest
      | .error e => .error e
    | .help => .error (l.stop .helpRequested)
    | .version => .error (l.stop .versionRequested)
    | .overfull => .error .unexpectedValue
    | .unknown => .error .unknownArgument
    | .plain text =>
      match l.addPlain text with
      | .ok l => l.addAll rest
      | .error e => .error e

end Line

/-- Fills in the defaults. -/
def ofDraft (d : Draft) : Except UsageError Arguments :=
  match d.rom? with
  | none => .error .missingRom
  | some rom =>
    .ok ⟨rom, d.ips?.getD defaultIps, d.frameRate?.getD defaultFrameRate, d.seed?⟩

/-- Reads a command line, without the name of the program. -/
def parse (args : List String) : Except UsageError Arguments := do
  ofDraft (← (← Line.empty.addAll args).settle)

end Arguments

end Chip8

import Chip8.Keypad

/-!
# The keyboard

The left-hand four by four block of a keyboard stands for the keypad:

    1 2 3 4        1 2 3 C
    Q W E R   as   4 5 6 D
    A S D F        7 8 9 E
    Z X C V        A 0 B F

Most terminals report that a key goes down and that it repeats, but not that it
comes up. So a key counts as held for a number of frames after its last report,
unless its release is reported before.
-/

namespace Chip8

/-- A key of the keyboard. -/
inductive Key where
  | char (c : Char)
  | escape
  /-- Any key that types nothing. -/
  | special
deriving Repr, DecidableEq

namespace Key

def layout : List (Char × Fin 16) :=
  [('1', 0x1), ('2', 0x2), ('3', 0x3), ('4', 0xC),
    ('q', 0x4), ('w', 0x5), ('e', 0x6), ('r', 0xD),
    ('a', 0x7), ('s', 0x8), ('d', 0x9), ('f', 0xE),
    ('z', 0xA), ('x', 0x0), ('c', 0xB), ('v', 0xF)]

/-- The keypad key that a key stands for. Of letters only the ASCII ones have a
case here, so no other character is taken for one of them. -/
def code? : Key → Option (Fin 16)
  | char c => layout.lookup c.toLower
  | escape | special => none

/-- The key that types a character. -/
def ofChar (c : Char) : Key := if c = '\x1b' then escape else char c

end Key

inductive KeyAction where
  | press
  | repeated
  | release
deriving Repr, DecidableEq

structure KeyEvent where
  key : Key
  action : KeyAction
deriving Repr, DecidableEq

/-- What a terminal has to report: a key, or anything else, such as its new size. -/
inductive TerminalEvent where
  | key (e : KeyEvent)
  | other
deriving Repr, DecidableEq

/-- The keys among what was reported, in order. -/
def TerminalEvent.keys (events : List TerminalEvent) : List KeyEvent :=
  events.filterMap fun
    | key e => some e
    | other => none

/-- What a terminal that knows of no releases reports when a text is typed. -/
def KeyEvent.ofText (text : List Char) : List KeyEvent :=
  text.map fun c => ⟨.ofChar c, .press⟩

/-- For each key of the keypad the number of frames for which it still counts as
held. -/
structure HeldKeys where
  frames : Vector Nat 16
deriving Repr, DecidableEq

namespace HeldKeys

/-- For how many frames a report counts, its own included. -/
def holdFrames : Nat := 6

def none : HeldKeys := ⟨Vector.replicate 16 0⟩

instance : Inhabited HeldKeys := ⟨none⟩

/-- One frame passes. -/
def age (h : HeldKeys) : HeldKeys := ⟨h.frames.map (· - 1)⟩

def framesOf : KeyAction → Nat
  | .press | .repeated => holdFrames
  | .release => 0

/-- A key that stands for no keypad key changes nothing. -/
def note (h : HeldKeys) (e : KeyEvent) : HeldKeys :=
  match e.key.code? with
  | some code => ⟨h.frames.set code (framesOf e.action)⟩
  | Option.none => h

def noteAll (h : HeldKeys) (events : List KeyEvent) : HeldKeys := events.foldl note h

def IsHeld (h : HeldKeys) (code : Fin 16) : Prop := 0 < h.frames[code]

instance (h : HeldKeys) : DecidablePred h.IsHeld := fun code => by
  unfold IsHeld; infer_instance

/-- The codes of the held keys, in ascending order. -/
def toList (h : HeldKeys) : List UInt8 :=
  ((List.finRange 16).filter fun code => h.IsHeld code).map fun code => UInt8.ofNat code.val

theorem get_none (code : Fin 16) : none.frames.get code = 0 := by
  show none.frames[code] = 0
  simp [none]

theorem get_age (h : HeldKeys) (code : Fin 16) :
    h.age.frames.get code = h.frames.get code - 1 := by
  show h.age.frames[code] = h.frames[code] - 1
  simp [age]

theorem get_note (h : HeldKeys) (e : KeyEvent) (code : Fin 16) :
    (h.note e).frames.get code
      = if e.key.code? = some code then framesOf e.action else h.frames.get code := by
  show (h.note e).frames[code]
    = if e.key.code? = some code then framesOf e.action else h.frames[code]
  unfold note
  cases hc : e.key.code? with
  | none => simp
  | some c =>
    by_cases h' : c = code
    · simp [h']
    · have hv : c.val ≠ code.val := fun he => h' (Fin.ext he)
      simp [h', hv]

end HeldKeys

end Chip8

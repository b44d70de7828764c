import Chip8.Random.ChaCha

/-!
# Random bytes

A generator is a key and a position in the sequence of words that the key
fixes. Drawing a byte takes the low byte of the word at that position and moves
on by one word, so two generators with one seed differ only in how often they
were drawn from.
-/

namespace Chip8

namespace Seed

/-- The successor of a state while a seed is expanded. -/
def step (s : UInt64) : UInt64 := s * 6364136223846793005 + 11634580027462260723

/-- The state after `k` steps. -/
def state (seed : UInt64) : Nat → UInt64
  | 0 => seed
  | k + 1 => step (state seed k)

def rotateRight (w amount : UInt32) : UInt32 :=
  (w >>> amount) ||| (w <<< (32 - amount))

/-- The word that a state gives out: its high bits folded together and rotated
right by its highest five. -/
def word (s : UInt64) : UInt32 :=
  rotateRight (((s >>> 18) ^^^ s) >>> 27).toUInt32 (s >>> 59).toUInt32

/-- The key of a seed: the words of the first eight states after it. -/
def key (seed : UInt64) : ChaCha.Key :=
  Vector.ofFn fun i => word (state seed (i.val + 1))

end Seed

structure Generator where
  key : ChaCha.Key
  /-- How many words have been drawn. -/
  position : Nat
deriving Repr, DecidableEq

namespace Generator

def ofSeed (seed : UInt64) : Generator := ⟨Seed.key seed, 0⟩

instance : Inhabited Generator := ⟨ofSeed 0⟩

/-- The byte that the next draw gives. -/
def byte (g : Generator) : UInt8 := (ChaCha.stream g.key g.position).toUInt8

/-- The generator after one draw. -/
def advance (g : Generator) : Generator := { g with position := g.position + 1 }

@[simp] theorem key_advance (g : Generator) : g.advance.key = g.key := rfl

@[simp] theorem position_advance (g : Generator) : g.advance.position = g.position + 1 := rfl

end Generator

end Chip8

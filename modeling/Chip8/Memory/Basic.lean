import Chip8.Fault
import Chip8.Memory.Font

/-!
# Memory

4096 bytes. The font lies at `0x050` and is read-only; a program lies at
`0x200` and may fill the rest.

Reading and writing use the low twelve bits of an address, so they wrap around
the end of memory. Fetching an instruction word does not wrap: the word has to
lie in memory as a whole.
-/

namespace Chip8

structure Memory where
  bytes : Vector UInt8 4096
deriving DecidableEq

namespace Memory

def size : Nat := 4096

/-- Where the font starts. -/
def fontStart : Nat := 0x50

/-- Where a program starts. -/
def programStart : Address := 0x200

/-- The largest program, in bytes. -/
def programCapacity : Nat := size - programStart.toNat

/-- The byte that a data address refers to. -/
def slot (a : Address) : Fin 4096 := ⟨a.toNat % 4096, Nat.mod_lt _ (by decide)⟩

/-- The byte at this position belongs to the font. -/
def InFont (i : Fin 4096) : Prop :=
  fontStart ≤ i.val ∧ i.val < fontStart + Font.glyphs.length

instance : DecidablePred InFont := fun i => by
  unfold InFont; infer_instance

/-! ## Contents -/

/-- Puts a list of bytes at position `i`. Bytes past the end are dropped. -/
def place (bytes : Vector UInt8 4096) (i : Nat) : List UInt8 → Vector UInt8 4096
  | [] => bytes
  | b :: l => place (bytes.setIfInBounds i b) (i + 1) l

/-- The font and nothing else. -/
def initial : Memory := ⟨place (Vector.replicate 4096 0) fontStart Font.glyphs⟩

instance : Inhabited Memory := ⟨initial⟩

/-- Copies a program to its place. -/
def load (m : Memory) (program : List UInt8) : Except Fault Memory :=
  if program.isEmpty then .error .emptyProgram
  else if programCapacity < program.length then
    .error (.programTooLarge program.length programCapacity)
  else .ok ⟨place m.bytes programStart.toNat program⟩

/-! ## Data access -/

def read (m : Memory) (a : Address) : UInt8 := m.bytes[slot a]

/-- Writes one byte; a write into the font has no effect. -/
def write (m : Memory) (a : Address) (b : UInt8) : Memory :=
  if InFont (slot a) then m else ⟨m.bytes.set (slot a) b⟩

/-- The `count` bytes from `a` on. -/
def readList (m : Memory) (a : Address) : Nat → List UInt8
  | 0 => []
  | count + 1 => m.read a :: m.readList (a + 1) count

/-- Writes a list of bytes from `a` on. -/
def writeList (m : Memory) (a : Address) : List UInt8 → Memory
  | [] => m
  | b :: l => (m.write a b).writeList (a + 1) l

/-- The writes of `writeList` that have no effect: position and byte of each,
in order. -/
def refused (a : Address) : List UInt8 → List (Fin 4096 × UInt8)
  | [] => []
  | b :: l =>
    if InFont (slot a) then (slot a, b) :: refused (a + 1) l else refused (a + 1) l

/-! ## Instructions and sprites -/

/-- The instruction word at `pc`. -/
def fetch (m : Memory) (pc : Address) : Except Fault Word :=
  if h : pc.toNat + 2 ≤ 4096 then
    .ok (.ofBytes m.bytes[pc.toNat] m.bytes[pc.toNat + 1])
  else .error (.outOfBounds pc)

/-- The largest number of rows that a sprite in memory can have. -/
def maxSpriteRows : Nat := 15

/-- The rows of the sprite at `a`. -/
def sprite (m : Memory) (a : Address) (rows : UInt8) : List UInt8 :=
  m.readList a (min rows.toNat maxSpriteRows)

/-- Where the glyph of a digit starts. Only the low half of the byte counts. -/
def glyphAddress (digit : UInt8) : Address :=
  UInt16.ofNat (fontStart + digit.toNat % 16 * Font.glyphHeight)

/-! ## What each operation does to a byte -/

theorem read_eq (m : Memory) (a : Address) : m.read a = m.bytes[(slot a).val] := rfl

@[simp] theorem length_readList (m : Memory) (a : Address) (count : Nat) :
    (m.readList a count).length = count := by
  induction count generalizing a with
  | zero => rfl
  | succ count ih => simp [readList, ih]

theorem write_of_inFont (m : Memory) {a : Address} (b : UInt8) (h : InFont (slot a)) :
    m.write a b = m := by
  simp [write, h]

theorem get_write (m : Memory) (a : Address) (b : UInt8) (s : Fin 4096) :
    (m.write a b).bytes.get s
      = if s = slot a ∧ ¬ InFont (slot a) then b else m.bytes.get s := by
  show (m.write a b).bytes[s.val] = if _ then b else m.bytes[s.val]
  unfold write
  by_cases hf : InFont (slot a)
  · simp [hf]
  · by_cases hs : s = slot a
    · simp [hf, hs]
    · have hv : (slot a).val ≠ s.val := fun h => hs (Fin.ext h.symm)
      simp [hf, hs, hv]

theorem read_write (m : Memory) (a c : Address) (b : UInt8) :
    (m.write a b).read c
      = if slot c = slot a ∧ ¬ InFont (slot a) then b else m.read c :=
  get_write m a b (slot c)

end Memory

end Chip8

/-!
# The ChaCha12 block function

A block is sixteen 32-bit words, seen as a square of four rows. The input block
holds four constants, a key of eight words, a 64-bit block counter and two zero
words; the output is the input after twelve rounds, added word by word to the
input.

Every second round works on the columns, the others on the diagonals. A diagonal
becomes a column when each row is turned by its own number, so both are the one
function `Square.mixColumns`, which treats all four columns at once.

`ChaCha.stream` reads the output blocks of counters 0, 1, 2, … as one infinite
sequence of words.
-/

namespace Chip8

namespace ChaCha

abbrev Key := Vector UInt32 8

abbrev Row := Vector UInt32 4

abbrev Block := Vector UInt32 16

def rotateLeft (w amount : UInt32) : UInt32 :=
  (w <<< amount) ||| (w >>> (32 - amount))

namespace Row

def add (r s : Row) : Row := r.zipWith (· + ·) s

/-- The exclusive or of two rows, each word rotated. -/
def xorRotate (amount : UInt32) (r s : Row) : Row :=
  r.zipWith (fun v w => rotateLeft (v ^^^ w) amount) s

/-- The row with word `k` in front, the ones before it at the end. -/
def turn (k : Nat) (r : Row) : Row := Vector.ofFn fun i => r[(i.val + k) % 4]

end Row

structure Square where
  a : Row
  b : Row
  c : Row
  d : Row

namespace Square

/-- Half of a column's mixing: the sum of two words goes into a third, and the
sum with that one into a fourth. -/
def mixHalf (forD forB : UInt32) (s : Square) : Square :=
  let a := s.a.add s.b
  let d := s.d.xorRotate forD a
  let c := s.c.add d
  let b := s.b.xorRotate forB c
  ⟨a, b, c, d⟩

def mixColumns (s : Square) : Square := (s.mixHalf 16 12).mixHalf 8 7

/-- Turns the rows below the first by the given numbers of words. -/
def turn (forB forC forD : Nat) (s : Square) : Square :=
  ⟨s.a, s.b.turn forB, s.c.turn forC, s.d.turn forD⟩

/-- One round over the columns and one over the diagonals. -/
def doubleRound (s : Square) : Square :=
  ((s.mixColumns.turn 1 2 3).mixColumns).turn 3 2 1

def doubleRounds : Nat → Square → Square
  | 0, s => s
  | k + 1, s => doubleRounds k s.doubleRound

def words (s : Square) : Block := s.a ++ s.b ++ s.c ++ s.d

end Square

def constants : Row := #v[0x61707865, 0x3320646e, 0x79622d32, 0x6b206574]

/-- The counter, low word first, and the two zero words. -/
def counterRow (counter : Nat) : Row :=
  #v[UInt32.ofNat counter, UInt32.ofNat (counter / UInt32.size), 0, 0]

def input (key : Key) (counter : Nat) : Square where
  a := constants
  b := key.take 4
  c := key.drop 4
  d := counterRow counter

def block (key : Key) (counter : Nat) : Block :=
  let start := input key counter
  (start.doubleRounds 6).words.zipWith (· + ·) start.words

/-- Word `n` of the sequence that the key fixes. -/
def stream (key : Key) (n : Nat) : UInt32 :=
  (block key (n / 16))[n % 16]

end ChaCha

end Chip8

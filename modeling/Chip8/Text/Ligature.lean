import Chip8.Text.CharSet
import Chip8.Text.Marks

/-!
# Ligatures

Letters of some scripts that are written as one where they meet, and then take
one cell. Lam and alef of the Arabic script are joined by themselves and through
marks; other letters need a joiner between them, or a sign of their script.
-/

namespace Chip8

/-- The letters at the end of a ligature, Arabic apart. -/
inductive Ligature where
  | hebrew
  | buginese
  | tifinagh
  | lisu
  | oldTurkic
  | khmer
deriving Repr, DecidableEq

namespace Ligature

/-- Letters that are joined like alef. -/
def alefs : CharSet :=
  ⟨[(0x0622, 0x0623), (0x0625, 0x0625), (0x0627, 0x0627), (0x0671, 0x0673), (0x0675, 0x0675),
    (0x0773, 0x0774), (0x0870, 0x0882)]⟩

/-- Letters that are joined like lam. -/
def lams : CharSet :=
  ⟨[(0x0644, 0x0644), (0x06B5, 0x06B8), (0x076A, 0x076A), (0x08A6, 0x08A6), (0x08C7, 0x08C7)]⟩

def tifinaghConsonants : CharSet := ⟨[(0x2D31, 0x2D65), (0x2D6F, 0x2D6F)]⟩

/-- The sign between two consonants that are written as one. -/
def tifinaghJoiner : Char := Char.ofNat 0x2D7F

/-- The letters that a coeng in front of them turns into a sign below. -/
def coengLetters : CharSet :=
  ⟨[(0x1780, 0x1782), (0x1784, 0x1787), (0x1789, 0x178C), (0x178E, 0x1793), (0x1795, 0x1798),
    (0x179B, 0x179D), (0x17A0, 0x17A0), (0x17A2, 0x17A2), (0x17A7, 0x17A7), (0x17AB, 0x17AC),
    (0x17AF, 0x17AF)]⟩

def coeng : Char := Char.ofNat 0x17D2

def lisuFirst : CharSet := ⟨[(0xA4F8, 0xA4FB)]⟩

/-- The ligature that a letter can end. -/
def ofLast? (c : Char) : Option Ligature :=
  if c.toNat = 0x05DC then some .hebrew
  else if c.toNat = 0x1A10 then some .buginese
  else if c ∈ tifinaghConsonants then some .tifinagh
  else if 0xA4FC ≤ c.toNat ∧ c.toNat ≤ 0xA4FD then some .lisu
  else if c.toNat = 0x10C03 then some .oldTurkic
  else if c ∈ coengLetters then some .khmer
  else none

/-- Marks that do not keep letters apart and are not shown themselves. -/
def transparent : CharSet :=
  ⟨[(0x034F, 0x034F), (0x17B4, 0x17B5), (0x180B, 0x180D), (0x180F, 0x180F), (0xFE00, 0xFE0F),
    (0xE0100, 0xE01EF)]⟩

end Ligature

end Chip8

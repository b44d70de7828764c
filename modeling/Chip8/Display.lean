/-!
# The display

64 by 32 pixels, each lit or not. A row is a 64-bit word whose most
significant bit is the leftmost pixel.

A sprite is drawn by exclusive or, one byte a row. What would lie to the right
of the screen or below it is cut off; nothing wraps around.
-/

namespace Chip8

/-- The rows of a picture eight pixels wide, the most significant bit on the
left. -/
abbrev Sprite := List UInt8

/-- The bits that a sprite with its upper left corner at column `x` and row `y`
sets in screen row `row`. -/
def Sprite.rowMask (s : Sprite) (x y row : Nat) : BitVec 64 :=
  if row < y then 0
  else match s[row - y]? with
    | some byte => (BitVec.ofNat 64 byte.toNat <<< 56) >>> x
    | none => 0

namespace Sprite

/-- A sprite covers eight columns from `x` on, the highest bit of a byte first. -/
theorem getMsbD_rowMask (s : Sprite) {x y row column : Nat} (h : column < 64) :
    (s.rowMask x y row).getMsbD column
      = (decide (x ≤ column ∧ column < x + 8 ∧ y ≤ row) &&
          (s[row - y]?.getD 0).toNat.testBit (7 - (column - x))) := by
  unfold rowMask
  by_cases hy : row < y
  · simp [hy, Nat.not_le.mpr hy]
  · have hy' : y ≤ row := Nat.le_of_not_lt hy
    cases hs : s[row - y]? with
    | none => simp [hy]
    | some b =>
      simp only [hy, if_false, BitVec.getMsbD_eq_getLsbD, BitVec.getLsbD_ushiftRight,
        BitVec.getLsbD_shiftLeft, BitVec.getLsbD_ofNat, h, hy', and_true, Option.getD_some,
        decide_true, Bool.true_and]
      by_cases hx : x ≤ column ∧ column < x + 8
      · have e : x + (64 - 1 - column) - 56 = 7 - (column - x) := by omega
        have h₁ : x + (64 - 1 - column) < 64 := by omega
        have h₂ : ¬ x + (64 - 1 - column) < 56 := by omega
        have h₃ : 7 - (column - x) < 64 := by omega
        simp [hx, e, h₁, h₂, h₃]
      · have : ¬ x + (64 - 1 - column) < 64 ∨ x + (64 - 1 - column) < 56 := by omega
        rcases this with h₁ | h₁ <;> simp [hx, h₁]
end Sprite

structure Display where
  rows : Vector (BitVec 64) 32
deriving DecidableEq

namespace Display

def width : Nat := 64

def height : Nat := 32

/-- No pixel is lit. -/
def blank : Display := ⟨Vector.replicate 32 0⟩

instance : Inhabited Display := ⟨blank⟩

/-- Pixels outside the screen are not lit. -/
def pixel (d : Display) (x y : Nat) : Bool :=
  if h : y < 32 then d.rows[y].getMsbD x else false

/-- The display after drawing a sprite. -/
def draw (d : Display) (x y : Nat) (s : Sprite) : Display :=
  ⟨Vector.ofFn fun row => d.rows[row] ^^^ s.rowMask x y row⟩

/-- Drawing the sprite turns a lit pixel off. -/
def collides (d : Display) (x y : Nat) (s : Sprite) : Bool :=
  (List.finRange 32).any fun row => d.rows[row] &&& s.rowMask x y row ≠ 0

/-- The pixels from top to bottom, each row from left to right. -/
def toLists (d : Display) : List (List Bool) :=
  d.rows.toList.map fun row => (List.range width).map row.getMsbD

/-- The number of lit pixels. -/
def litCount (d : Display) : Nat := d.toLists.flatten.count true

/-- One line for each row, each closed by a line break. -/
def text (d : Display) : String :=
  String.join (d.toLists.map fun row =>
    String.ofList (row.map fun lit => if lit then '#' else '.') ++ "\n")

theorem pixel_of_le (d : Display) {x y : Nat} (h : width ≤ x ∨ height ≤ y) :
    d.pixel x y = false := by
  unfold pixel
  split
  · rename_i hy
    rcases h with hx | hx
    · exact BitVec.getMsbD_of_ge _ _ hx
    · exact absurd hy (by simp only [height] at hx; omega)
  · rfl

theorem pixel_draw (d : Display) (x y : Nat) (s : Sprite) (column row : Nat) :
    (d.draw x y s).pixel column row
      = (d.pixel column row
          ^^ (decide (row < height) && (s.rowMask x y row).getMsbD column)) := by
  unfold pixel draw
  by_cases h : row < 32 <;> simp [h, height]

@[simp] theorem pixel_blank (x y : Nat) : blank.pixel x y = false := by
  simp [blank, pixel]

end Display

end Chip8

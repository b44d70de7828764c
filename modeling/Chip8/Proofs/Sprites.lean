import Chip8.Proofs.Access
import Chip8.Proofs.Drawing

/-!
# Drawing from memory

A draw instruction takes the rows of its sprite from memory, counted around
the end of it, and puts them where two registers say, counted around the
edges of the screen. The sprite itself does not go around an edge.

`Machine.TurnsOver` says which pixels that are without a sprite in between
(`lit_sprite_iff`). They are turned over, the flag says whether one of them
was lit, and nothing else changes (`draw_turns_over`).
-/

namespace Chip8

theorem Memory.length_sprite (m : Memory) (a : Address) {rows : UInt8} (h : rows.toNat ≤ 15) :
    (m.sprite a rows).length = rows.toNat := by
  rw [sprite, length_readList]
  exact Nat.min_eq_left h

theorem Memory.getElem?_sprite (m : Memory) (a : Address) {rows : UInt8} {k : Nat}
    (h : rows.toNat ≤ 15) (hk : k < rows.toNat) :
    (m.sprite a rows)[k]? = some m.bytes[(a.toNat + k) % 4096] :=
  m.getElem?_readList a (Nat.lt_min.mpr ⟨hk, Nat.lt_of_lt_of_le hk h⟩)

namespace Machine

/-- A draw of this many rows turns the pixel over: it lies on the screen, in
one of the eight columns from the first register on and one of the rows from
the second register on, and its bit of the byte that many bytes behind the
index is set. -/
def TurnsOver (m : Machine) (x y : Register) (rows : UInt8) (column row : Nat) : Prop :=
  let left := (m.registers.get x).toNat % 64
  let top := (m.registers.get y).toNat % 32
  (column < 64 ∧ row < 32)
    ∧ (left ≤ column ∧ column < left + 8) ∧ (top ≤ row ∧ row < top + rows.toNat)
    ∧ m.memory.bytes[(m.index.toNat + (row - top)) % 4096].toNat.testBit (7 - (column - left))
      = true

instance (m : Machine) (x y : Register) (rows : UInt8) (column row : Nat) :
    Decidable (m.TurnsOver x y rows column row) := by
  unfold TurnsOver
  infer_instance

section Draw

variable (m : Machine) (x y : Register) {rows : UInt8} (h : rows.toNat ≤ 15)
include h

theorem lit_sprite_iff {column row : Nat} (hc : column < 64) (hr : row < 32) :
    Sprite.lit (m.memory.sprite m.index rows) ((m.registers.get x).toNat % 64)
        ((m.registers.get y).toNat % 32) column row = true ↔
      m.TurnsOver x y rows column row := by
  rw [Sprite.lit_iff, m.memory.length_sprite m.index h]
  simp only [TurnsOver, hc, hr, and_self, true_and]
  refine and_congr_right fun _ => and_congr_right ?_
  rintro ⟨hle, hlt⟩
  rw [m.memory.getElem?_sprite m.index h (by omega), Option.getD_some]

/-- The flag of a draw: a pixel that was lit is turned over. -/
theorem collides_sprite_iff :
    m.display.collides ((m.registers.get x).toNat % 64) ((m.registers.get y).toNat % 32)
        (m.memory.sprite m.index rows) = true ↔
      ∃ column row, m.TurnsOver x y rows column row ∧ m.display.pixel column row = true := by
  rw [Display.collides_iff]
  constructor
  · rintro ⟨column, hc, row, hr, hpixel, hlit⟩
    exact ⟨column, row, (m.lit_sprite_iff x y h hc hr).mp hlit, hpixel⟩
  · rintro ⟨column, row, hturn, hpixel⟩
    obtain ⟨⟨hc, hr⟩, -⟩ := id hturn
    exact ⟨column, hc, row, hr, hpixel, (m.lit_sprite_iff x y h hc hr).mpr hturn⟩

theorem pixel_draw_sprite (column row : Nat) :
    (m.display.draw ((m.registers.get x).toNat % 64) ((m.registers.get y).toNat % 32)
        (m.memory.sprite m.index rows)).pixel column row
      = (m.display.pixel column row ^^ decide (m.TurnsOver x y rows column row)) := by
  have hturn : (column < 64 ∧ row < 32) ∧ Sprite.lit (m.memory.sprite m.index rows)
        ((m.registers.get x).toNat % 64) ((m.registers.get y).toNat % 32) column row = true ↔
      m.TurnsOver x y rows column row := by
    constructor
    · rintro ⟨⟨hc, hr⟩, hlit⟩
      exact (m.lit_sprite_iff x y h hc hr).mp hlit
    · intro ht
      obtain ⟨⟨hc, hr⟩, -⟩ := id ht
      exact ⟨⟨hc, hr⟩, (m.lit_sprite_iff x y h hc hr).mpr ht⟩
  rw [Display.pixel_draw_eq]
  simp only [hturn]

end Draw

/-- **A draw instruction turns pixels over.** They are the ones that the
set bits of its rows in memory fall on, and no other; bits that fall beside
the screen fall nowhere. The flag is one if one of them was lit and zero
otherwise, whichever registers said where to draw, and without a row it is
zero. All else is as it was. -/
theorem draw_turns_over (m : Machine) (x y : Register) {rows : UInt8} (h : rows.toNat ≤ 15) :
    let o := m.execute (.draw x y rows)
    (∀ column row, o.machine.display.pixel column row
      = (m.display.pixel column row ^^ decide (m.TurnsOver x y rows column row)))
    ∧ (o.machine.registers.get .flag = 1 ↔
        ∃ column row, m.TurnsOver x y rows column row ∧ m.display.pixel column row = true)
    ∧ (o.machine.registers.get .flag = 0 ↔
        ∀ column row, m.TurnsOver x y rows column row → m.display.pixel column row = false)
    ∧ (rows = 0 → o.machine.registers.get .flag = 0)
    ∧ (∀ r, r ≠ .flag → o.machine.registers.get r = m.registers.get r)
    ∧ o.machine = { m with display := o.machine.display, registers := o.machine.registers }
    ∧ o.fault? = none ∧ o.events = [] := by
  intro o
  have hcollides := m.collides_sprite_iff x y h
  have hone : o.machine.registers.get .flag = 1 ↔
      ∃ column row, m.TurnsOver x y rows column row ∧ m.display.pixel column row = true :=
    (Registers.get_setFlag_eq_one_iff ..).trans hcollides
  have hzero : o.machine.registers.get .flag = 0 ↔
      ∀ column row, m.TurnsOver x y rows column row → m.display.pixel column row = false := by
    refine (Registers.get_setFlag_eq_zero_iff ..).trans (Bool.eq_false_iff.trans ?_)
    refine (not_congr hcollides).trans ?_
    simp only [not_exists, not_and, Bool.not_eq_true]
  refine ⟨m.pixel_draw_sprite x y h, hone, hzero, ?_, ?_, rfl, rfl, rfl⟩
  · rintro rfl
    refine hzero.mpr fun column row hturn => ?_
    obtain ⟨-, -, ⟨hle, hlt⟩, -⟩ := hturn
    exact absurd hlt (Nat.not_lt.mpr hle)
  · intro r hr
    exact Registers.get_setFlag_of_ne _ _ hr

/-- The picture of the digit zero in the last row, most of it beside the
screen. Its row is named by the flag register, and the index reaches the
font from behind the end of memory. -/
theorem draw_turns_over_corner :
    let m : Machine :=
      { initial (.ofSeed 0) 0 with
        index := 0x1050
        registers := (Registers.zero.set 1 62).set .flag 95 }
    let o := m.execute (.draw 1 .flag 5)
    (5 : UInt8).toNat ≤ 15
    ∧ o.machine.display.pixel 63 31 = true
    ∧ o.machine.display.pixel 0 31 = false
    ∧ o.machine.registers.get .flag = 0 := by
  intro m o
  have hrows : (5 : UInt8).toNat ≤ 15 := by decide
  obtain ⟨hpixel, -, hzero, -⟩ := m.draw_turns_over 1 .flag hrows
  have hbyte : m.memory.bytes[0x50] = 0xF0 :=
    Memory.holds_place _ 0x50 Font.glyphs ⟨0x50, by decide⟩ _ (Nat.le_refl _) rfl
  have hturn : m.TurnsOver 1 .flag 5 63 31 := by
    refine ⟨by decide, by decide, by decide, ?_⟩
    have hposition : (m.index.toNat + (31 - (m.registers.get .flag).toNat % 32)) % 4096 = 0x50 := by
      decide
    have hbit : 7 - (63 - (m.registers.get 1).toNat % 64) = 6 := by decide
    simp only [hposition, hbit, hbyte]
    decide
  have hkept : ¬ m.TurnsOver 1 .flag 5 0 31 := by
    rintro ⟨-, ⟨hle, -⟩, -⟩
    exact absurd hle (by decide)
  refine ⟨hrows, ?_, ?_, hzero.mpr fun column row _ => Display.pixel_blank column row⟩
  · rw [hpixel, decide_eq_true hturn]
    exact congrArg (· ^^ true) (Display.pixel_blank 63 31)
  · rw [hpixel, decide_eq_false hkept]
    exact congrArg (· ^^ false) (Display.pixel_blank 0 31)

end Machine

end Chip8

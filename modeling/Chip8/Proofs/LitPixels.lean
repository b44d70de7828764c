import Mathlib.Algebra.BigOperators.Group.Finset.Piecewise
import Mathlib.Algebra.BigOperators.Group.Finset.Sigma
import Mathlib.Data.Finset.SymmDiff
import Chip8.Proofs.Drawing

/-!
# Counting lit pixels

The pixels that are lit form a finite set of places, and `Display.litCount`
is its size (`Display.litCount_eq_card`). A sprite covers such a set too, as
large as the number of its set bits that fall on the screen
(`Sprite.card_bitsOnScreen`).

Drawing takes the symmetric difference of the two sets and turns their
intersection off, so the count follows from the sizes alone
(`Display.lit_accounting`).
-/

namespace Chip8

/-- The places in the first `m` columns and `n` rows, column first. Irreducible,
or a membership in 64 columns and 32 rows would be unfolded place by place. -/
@[irreducible] def places (m n : Nat) : Finset (Nat × Nat) := Finset.range m ×ˢ Finset.range n

theorem mem_places {m n : Nat} {p : Nat × Nat} : p ∈ places m n ↔ p.1 < m ∧ p.2 < n := by
  simp [places]

namespace Sprite

/-- The set bits of a sprite that fall on the screen: the number of the byte
and that of the bit in it, the highest bit first. -/
def bitsOnScreen (s : Sprite) (x y : Nat) : Finset (Nat × Nat) :=
  (Finset.range s.length ×ˢ Finset.range 8).filter fun p =>
    (s[p.1]?.getD 0).toNat.testBit (7 - p.2) = true ∧ x + p.2 < 64 ∧ y + p.1 < 32

/-- The pixels that a sprite has a set bit at. -/
def covered (s : Sprite) (x y : Nat) : Finset (Nat × Nat) :=
  (places 64 32).filter fun p => s.lit x y p.1 p.2 = true

theorem mem_bitsOnScreen {s : Sprite} {x y k b : Nat} :
    (k, b) ∈ s.bitsOnScreen x y ↔
      (k < s.length ∧ b < 8) ∧ (s[k]?.getD 0).toNat.testBit (7 - b) = true
        ∧ x + b < 64 ∧ y + k < 32 := by
  simp [bitsOnScreen]

theorem mem_covered {s : Sprite} {x y column row : Nat} :
    (column, row) ∈ s.covered x y ↔
      (column < 64 ∧ row < 32) ∧ s.lit x y column row = true := by
  simp [covered, mem_places]

theorem card_bitsOnScreen (s : Sprite) (x y : Nat) :
    (s.bitsOnScreen x y).card = (s.covered x y).card := by
  refine Finset.card_bij (fun p _ => (x + p.2, y + p.1)) ?_ ?_ ?_
  · rintro ⟨k, b⟩ hp
    obtain ⟨⟨hk, hb⟩, hbit, hx, hy⟩ := mem_bitsOnScreen.mp hp
    refine mem_covered.mpr ⟨⟨hx, hy⟩, lit_iff.mpr ⟨by omega, by omega, ?_⟩⟩
    rwa [Nat.add_sub_cancel_left, Nat.add_sub_cancel_left]
  · rintro ⟨k, b⟩ - ⟨k', b'⟩ - h
    simp only [Prod.mk.injEq, Nat.add_left_cancel_iff] at h ⊢
    exact h.symm
  · rintro ⟨column, row⟩ hp
    obtain ⟨⟨hcolumn, hrow⟩, hlit⟩ := mem_covered.mp hp
    obtain ⟨⟨hle, hlt⟩, ⟨hle', hlt'⟩, hbit⟩ := lit_iff.mp hlit
    refine ⟨(row - y, column - x), ?_, ?_⟩
    · exact mem_bitsOnScreen.mpr ⟨by omega, hbit, by omega, by omega⟩
    · exact Prod.ext (Nat.add_sub_cancel' hle) (Nat.add_sub_cancel' hle')

end Sprite

namespace Display

/-! ## The lit pixels as a set -/

def litPixels (d : Display) : Finset (Nat × Nat) :=
  (places 64 32).filter fun p => d.pixel p.1 p.2 = true

/-- The pixels that go out from one display to another. -/
def turnedOff (d d' : Display) : Finset (Nat × Nat) :=
  (places 64 32).filter fun p => d.pixel p.1 p.2 = true ∧ d'.pixel p.1 p.2 = false

theorem mem_litPixels {d : Display} {column row : Nat} :
    (column, row) ∈ d.litPixels ↔ d.pixel column row = true := by
  simp only [litPixels, Finset.mem_filter, mem_places, and_iff_right_iff_imp]
  exact lt_of_pixel

theorem mem_turnedOff {d d' : Display} {column row : Nat} :
    (column, row) ∈ d.turnedOff d' ↔
      d.pixel column row = true ∧ d'.pixel column row = false := by
  simp only [turnedOff, Finset.mem_filter, mem_places, and_iff_right_iff_imp, and_imp]
  exact fun h _ => lt_of_pixel h

theorem toLists_eq (d : Display) :
    d.toLists = (List.range 32).map fun y => (List.range 64).map fun x => d.pixel x y := by
  refine List.ext_getElem (by simp [toLists]) fun y hy hy' => ?_
  have hlt : y < 32 := by simpa using hy'
  simp [toLists, pixel, width, hlt]

theorem count_true_map (p : Nat → Bool) (n : Nat) :
    ((List.range n).map p).count true = ∑ i ∈ Finset.range n, if p i = true then 1 else 0 := by
  induction n with
  | zero => rfl
  | succ n ih =>
      rw [List.range_succ, List.map_append, List.count_append, ih, Finset.sum_range_succ]
      cases h : p n <;> simp [h]

/-- Row by row and all at once the same places are counted. -/
theorem count_true_rows (p : Nat → Nat → Bool) (m n : Nat) :
    ((List.range n).map fun y => (List.range m).map fun x => p x y).flatten.count true
      = ((places m n).filter fun q => p q.1 q.2 = true).card := by
  rw [places, Finset.card_filter, Finset.sum_product_right, List.count_flatten, List.map_map]
  change ∑ y ∈ Finset.range n, _ = _
  exact Finset.sum_congr rfl fun y _ => count_true_map (fun x => p x y) m

theorem litCount_eq_card (d : Display) : d.litCount = d.litPixels.card := by
  rw [litCount, toLists_eq, litPixels, count_true_rows]

/-! ## Drawing on the set -/

theorem pixel_draw_eq_covered (d : Display) (x y : Nat) (s : Sprite) (column row : Nat) :
    (d.draw x y s).pixel column row
      = (d.pixel column row ^^ decide ((column, row) ∈ s.covered x y)) := by
  rw [pixel_draw_eq]
  simp only [Sprite.mem_covered]

theorem litPixels_draw (d : Display) (x y : Nat) (s : Sprite) :
    (d.draw x y s).litPixels = symmDiff d.litPixels (s.covered x y) := by
  ext ⟨column, row⟩
  rw [Finset.mem_symmDiff, mem_litPixels, mem_litPixels, pixel_draw_eq_covered]
  cases d.pixel column row <;> simp

theorem turnedOff_draw (d : Display) (x y : Nat) (s : Sprite) :
    d.turnedOff (d.draw x y s) = d.litPixels ∩ s.covered x y := by
  ext ⟨column, row⟩
  rw [Finset.mem_inter, mem_turnedOff, mem_litPixels, pixel_draw_eq_covered]
  cases d.pixel column row <;> simp

theorem draw_draw (d : Display) (x y : Nat) (s : Sprite) : (d.draw x y s).draw x y s = d := by
  refine ext_pixel fun column row _ _ => ?_
  rw [pixel_draw_eq_covered, pixel_draw_eq_covered, Bool.xor_assoc, Bool.xor_self, Bool.xor_false]

theorem card_symmDiff_add {α : Type} [DecidableEq α] (A B : Finset α) :
    (symmDiff A B).card + 2 * (A ∩ B).card = A.card + B.card := by
  have hA := Finset.card_sdiff_add_card_inter A B
  have hB := Finset.card_sdiff_add_card_inter B A
  have hd : (symmDiff A B).card = (A \ B).card + (B \ A).card :=
    Finset.card_union_of_disjoint disjoint_sdiff_sdiff
  rw [Finset.inter_comm] at hB
  omega

theorem litCount_draw (d : Display) (x y : Nat) (s : Sprite) :
    (d.draw x y s).litCount + 2 * (d.turnedOff (d.draw x y s)).card
      = d.litCount + (s.bitsOnScreen x y).card := by
  rw [litCount_eq_card, litCount_eq_card, litPixels_draw, turnedOff_draw,
    s.card_bitsOnScreen, card_symmDiff_add]

theorem collides_iff_turnedOff (d : Display) (x y : Nat) (s : Sprite) :
    d.collides x y s = true ↔ (d.turnedOff (d.draw x y s)).Nonempty := by
  have hflag := (d.flipped_draw x y s).flag_iff_turned_off
  simp only [Bool.false_eq_true, false_or] at hflag
  rw [hflag]
  constructor
  · rintro ⟨column, row, h⟩
    exact ⟨(column, row), mem_turnedOff.mpr h⟩
  · rintro ⟨⟨column, row⟩, h⟩
    exact ⟨column, row, mem_turnedOff.mp h⟩

/-- Without a collision every bit lights a pixel. -/
theorem collides_eq_false_iff_litCount (d : Display) (x y : Nat) (s : Sprite) :
    d.collides x y s = false ↔
      (d.draw x y s).litCount = d.litCount + (s.bitsOnScreen x y).card := by
  rw [Bool.eq_false_iff, Ne, collides_iff_turnedOff, Finset.not_nonempty_iff_eq_empty,
    ← Finset.card_eq_zero]
  have hcount := d.litCount_draw x y s
  omega

@[simp] theorem litPixels_blank : blank.litPixels = ∅ := by
  ext ⟨column, row⟩
  simp [mem_litPixels]

/-- **The lit pixels are accounted for.** Each set bit of a sprite that falls
on the screen lights a pixel or turns a lit one off, whatever the display,
the corner and the length of the sprite. So the number of lit pixels grows
by the number of these bits less twice the number of the pixels that go
out, and the flag is down if nothing is lost. On a blank display every
bit counts and there is nothing to collide with; the same sprite drawn
again takes all of them back, and collides unless there were none. -/
theorem lit_accounting (d : Display) (x y : Nat) (s : Sprite) :
    let bits := (s.bitsOnScreen x y).card
    let after := d.draw x y s
    let first := blank.draw x y s
    after.litCount + 2 * (d.turnedOff after).card = d.litCount + bits
    ∧ (d.collides x y s = false ↔ after.litCount = d.litCount + bits)
    ∧ first.litCount = bits
    ∧ blank.collides x y s = false
    ∧ (first.collides x y s = true ↔ 0 < bits)
    ∧ first.draw x y s = blank := by
  intro bits after first
  have hblank : blank.litCount = 0 := by rw [litCount_eq_card, litPixels_blank, Finset.card_empty]
  have hnone : blank.collides x y s = false := by
    rw [Bool.eq_false_iff, Ne, collides_iff_turnedOff, turnedOff_draw, litPixels_blank,
      Finset.empty_inter]
    exact Finset.not_nonempty_empty
  have hfirst : first.litCount = bits := by
    rw [(blank.collides_eq_false_iff_litCount x y s).mp hnone, hblank, Nat.zero_add]
  have hagain : first.draw x y s = blank := blank.draw_draw x y s
  refine ⟨d.litCount_draw x y s, d.collides_eq_false_iff_litCount x y s, hfirst, hnone, ?_, hagain⟩
  -- the second drawing leaves no pixel lit, so without a collision there were no bits
  have hflag := first.collides_eq_false_iff_litCount x y s
  rw [hagain, hblank, hfirst] at hflag
  rw [← Bool.not_eq_false, hflag]
  omega

end Display

end Chip8

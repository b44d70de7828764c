import Chip8.Display

/-!
# Drawing pixel by pixel

`Display.draw` works on whole rows. `Display.scan?` draws the same sprite
one pixel at a time, at positions counted from the upper left corner, and
gives nothing as soon as a sum or a position is out of range. None ever is
(`scan?_eq`): what lies outside the screen is left before it is reached.

Each step turns over the pixels of a mask (`Display.Flipped`), and masks of
steps that share no pixel add up. What is left in the end is the mask of the
whole sprite, pixel for pixel (`drawn_pixel_by_pixel`).
-/

namespace Chip8

/-! ## What a sprite covers -/

/-- The byte, drawn from column `x` on, has a set bit at this column. -/
def byteLit (x : Nat) (byte : UInt8) (column : Nat) : Bool :=
  decide (x ≤ column ∧ column < x + 8) && byte.toNat.testBit (7 - (column - x))

/-- The sprite, drawn at column `x` and row `y`, has a set bit at this place. -/
def Sprite.lit (s : Sprite) (x y column row : Nat) : Bool :=
  decide (y ≤ row) && byteLit x (s[row - y]?.getD 0) column

namespace Sprite

theorem getMsbD_rowMask_eq_lit (s : Sprite) {x y row column : Nat} (h : column < 64) :
    (s.rowMask x y row).getMsbD column = s.lit x y column row := by
  rw [getMsbD_rowMask s h, lit, byteLit]
  by_cases hy : y ≤ row <;> simp [hy]

@[simp] theorem lit_nil (x y column row : Nat) : lit [] x y column row = false := by
  simp [lit, byteLit]

theorem lit_cons (byte : UInt8) (s : Sprite) (x y column row : Nat) :
    lit (byte :: s) x y column row
      = ((decide (row = y) && byteLit x byte column) || s.lit x (y + 1) column row) := by
  rcases Nat.lt_trichotomy row y with h | h | h
  · have h₁ : ¬ y ≤ row := by omega
    have h₂ : ¬ y + 1 ≤ row := by omega
    simp [lit, h₁, h₂, Nat.ne_of_lt h]
  · have h₂ : ¬ y + 1 ≤ y := by omega
    simp [lit, h, h₂]
  · have h₁ : row - y = row - (y + 1) + 1 := by omega
    have h₂ : y + 1 ≤ row := h
    simp [lit, Nat.le_of_lt h, h₂, h₁, Nat.ne_of_gt h]

theorem lit_iff {s : Sprite} {x y column row : Nat} :
    s.lit x y column row = true ↔
      (x ≤ column ∧ column < x + 8) ∧ (y ≤ row ∧ row < y + s.length)
        ∧ (s[row - y]?.getD 0).toNat.testBit (7 - (column - x)) = true := by
  simp only [lit, byteLit, Bool.and_eq_true, decide_eq_true_eq]
  constructor
  · rintro ⟨hy, hx, hbit⟩
    refine ⟨hx, ⟨hy, ?_⟩, hbit⟩
    -- below the sprite there is no byte and so no set bit
    refine Nat.lt_of_not_le fun hle => ?_
    rw [List.getElem?_eq_none (by omega)] at hbit
    simp at hbit
  · rintro ⟨hx, ⟨hy, -⟩, hbit⟩
    exact ⟨hy, hx, hbit⟩

end Sprite

namespace Display

theorem ext_pixel {d d' : Display}
    (h : ∀ x y, x < 64 → y < 32 → d.pixel x y = d'.pixel x y) : d = d' := by
  obtain ⟨rows⟩ := d
  obtain ⟨rows'⟩ := d'
  congr 1
  refine Vector.ext fun y hy => BitVec.eq_of_getMsbD_eq fun x hx => ?_
  simpa [pixel, hy] using h x y hx hy

/-! ## Turning pixels over -/

/-- From `p` to `q` exactly the pixels of the mask are turned over, and the
flag is raised if one of them was lit. -/
structure Flipped (mask : Nat → Nat → Bool) (p q : Display × Bool) : Prop where
  pixel : ∀ x y, x < 64 → y < 32 → q.1.pixel x y = (p.1.pixel x y ^^ mask x y)
  flag : q.2 = true ↔
    p.2 = true ∨ ∃ x < 64, ∃ y < 32, p.1.pixel x y = true ∧ mask x y = true

namespace Flipped

variable {mask mask₁ mask₂ : Nat → Nat → Bool} {p q r : Display × Bool}

theorem refl (h : ∀ x y, x < 64 → y < 32 → mask x y = false) (p : Display × Bool) :
    Flipped mask p p := by
  constructor
  · intro x y hx hy
    simp [h x y hx hy]
  · refine ⟨Or.inl, ?_⟩
    rintro (hp | ⟨x, hx, y, hy, -, hm⟩)
    · exact hp
    · rw [h x y hx hy] at hm
      cases hm

theorem congr (hq : Flipped mask₁ p q)
    (h : ∀ x y, x < 64 → y < 32 → mask₂ x y = mask₁ x y) : Flipped mask₂ p q := by
  constructor
  · intro x y hx hy
    rw [hq.pixel x y hx hy, h x y hx hy]
  · rw [hq.flag]
    refine or_congr_right (exists_congr fun x => and_congr_right fun hx =>
      exists_congr fun y => and_congr_right fun hy => ?_)
    rw [h x y hx hy]

/-- One after the other, as long as no pixel is turned over twice. -/
theorem trans (h₁ : Flipped mask₁ p q) (h₂ : Flipped mask₂ q r)
    (hd : ∀ x y, mask₁ x y = true → mask₂ x y = false) :
    Flipped (fun x y => mask₁ x y || mask₂ x y) p r := by
  have hor : ∀ x y, (mask₁ x y || mask₂ x y) = (mask₁ x y ^^ mask₂ x y) := by
    intro x y
    cases hm : mask₁ x y with
    | false => simp
    | true => simp [hd x y hm]
  constructor
  · intro x y hx hy
    rw [h₂.pixel x y hx hy, h₁.pixel x y hx hy, hor, Bool.xor_assoc]
  · rw [h₂.flag, h₁.flag, or_assoc]
    refine or_congr_right ⟨?_, ?_⟩
    · rintro (⟨x, hx, y, hy, hp, hm⟩ | ⟨x, hx, y, hy, hq, hm⟩)
      · exact ⟨x, hx, y, hy, hp, by simp [hm]⟩
      · have hm₁ : mask₁ x y = false := by
          cases h : mask₁ x y with
          | false => rfl
          | true => rw [hd x y h] at hm; cases hm
        rw [h₁.pixel x y hx hy, hm₁, Bool.xor_false] at hq
        exact ⟨x, hx, y, hy, hq, by simp [hm]⟩
    · rintro ⟨x, hx, y, hy, hp, hm⟩
      cases hm₁ : mask₁ x y with
      | true => exact Or.inl ⟨x, hx, y, hy, hp, hm₁⟩
      | false =>
          refine Or.inr ⟨x, hx, y, hy, ?_, by simpa [hm₁] using hm⟩
          rw [h₁.pixel x y hx hy, hm₁, Bool.xor_false]
          exact hp

theorem unique (hq : Flipped mask p q) (hr : Flipped mask p r) : q = r := by
  have hd : q.1 = r.1 := ext_pixel fun x y hx hy => by
    rw [hq.pixel x y hx hy, hr.pixel x y hx hy]
  have hf : q.2 = r.2 := Bool.eq_iff_iff.mpr (hq.flag.trans hr.flag.symm)
  exact Prod.ext hd hf

end Flipped

theorem collides_iff (d : Display) (x y : Nat) (s : Sprite) :
    d.collides x y s = true ↔
      ∃ column < 64, ∃ row < 32, d.pixel column row = true ∧ s.lit x y column row = true := by
  have hrow : ∀ b : BitVec 64, b ≠ 0 ↔ ∃ column < 64, b.getMsbD column = true := by
    intro b
    constructor
    · intro hb
      refine Decidable.byContradiction fun hn => hb (BitVec.eq_of_getMsbD_eq fun i hi => ?_)
      simpa using fun h => hn ⟨i, hi, h⟩
    · rintro ⟨column, -, h⟩ rfl
      simp at h
  simp only [collides, List.any_eq_true, List.mem_finRange, true_and, decide_eq_true_eq, hrow]
  constructor
  · rintro ⟨row, column, hc, h⟩
    rw [BitVec.getMsbD_and, Sprite.getMsbD_rowMask_eq_lit s hc, Bool.and_eq_true] at h
    exact ⟨column, hc, row, row.isLt, by simpa [pixel] using h.1, h.2⟩
  · rintro ⟨column, hc, row, hr, hp, hl⟩
    refine ⟨⟨row, hr⟩, column, hc, ?_⟩
    rw [BitVec.getMsbD_and, Sprite.getMsbD_rowMask_eq_lit s hc, hl, Bool.and_true]
    simpa [pixel, hr] using hp

theorem flipped_draw (d : Display) (x y : Nat) (s : Sprite) :
    Flipped (s.lit x y) (d, false) (d.draw x y s, d.collides x y s) := by
  constructor
  · intro column row hc hr
    rw [pixel_draw, Sprite.getMsbD_rowMask_eq_lit s hc]
    simp [height, hr]
  · simpa using d.collides_iff x y s

/-! ## One pixel after the other -/

/-- The first size that a 64-bit word cannot hold. -/
def sumLimit : Nat := 0x10000000000000000

def sum? (a b : Nat) : Option Nat := if a + b < sumLimit then some (a + b) else none

/-- Turns the pixel at position `i` over and raises the flag if it was lit. -/
def flip? (p : Display × Bool) (i : Nat) : Option (Display × Bool) :=
  if h : i < 32 * 64 then
    have hrow : i / 64 < 32 := Nat.div_lt_of_lt_mul (Nat.mul_comm .. ▸ h)
    let row := p.1.rows[i / 64]
    some (⟨p.1.rows.set (i / 64) (row ^^^ BitVec.twoPow 64 (63 - i % 64))⟩,
      p.2 || row.getMsbD (i % 64))
  else none

/-- The last `n` bits of a byte, the highest of them first. -/
def scanByte? (x row : Nat) (byte : UInt8) : Nat → Display × Bool → Option (Display × Bool)
  | 0, p => some p
  | n + 1, p => do
      let column ← sum? x (7 - n)
      if width ≤ column then some p
      else if byte.toNat.testBit n then
        scanByte? x row byte n (← flip? p (row * width + column))
      else scanByte? x row byte n p

/-- The bytes of a sprite from the `k`-th on. -/
def scanFrom? (x y : Nat) : Nat → Sprite → Display × Bool → Option (Display × Bool)
  | _, [], p => some p
  | k, byte :: s, p => do
      let row ← sum? y k
      if height ≤ row then some p
      else scanFrom? x y (k + 1) s (← scanByte? x row byte 8 p)

/-- The display after drawing a sprite, and whether a lit pixel was turned
off. -/
def scan? (d : Display) (x y : Nat) (s : Sprite) : Option (Display × Bool) :=
  scanFrom? x y 0 s (d, false)

theorem lt_sumLimit {n : Nat} (h : n ≤ 64) : n < sumLimit := Nat.lt_of_le_of_lt h (by decide)

theorem sum?_of_lt {a b : Nat} (h : a + b < sumLimit) : sum? a b = some (a + b) := if_pos h

theorem flip?_spec (p : Display × Bool) {x y : Nat} (hx : x < 64) (hy : y < 32) :
    ∃ q, flip? p (y * width + x) = some q
      ∧ Flipped (fun column row => decide (row = y ∧ column = x)) p q := by
  have hi : y * width + x < 32 * 64 := by simp only [width]; omega
  have hrow : (y * width + x) / 64 = y := by simp only [width]; omega
  have hcolumn : (y * width + x) % 64 = x := by simp only [width]; omega
  refine ⟨_, dif_pos hi, ?_, ?_⟩
  · intro column row hc hr
    by_cases h : row = y
    · subst h
      have hbit : (63 - x < 64) := by omega
      have hiff : column = 64 - (63 - x) - 1 ↔ column = x := by omega
      simp [pixel, hrow, hcolumn, hr, BitVec.getMsbD_twoPow, hbit, hiff]
    · simp [pixel, hrow, hcolumn, hr, h, Ne.symm h]
  · have hp : p.1.pixel x y = p.1.rows[y].getMsbD x := dif_pos hy
    simp only [hrow, hcolumn, Bool.or_eq_true, ← hp]
    refine or_congr_right ⟨fun h => ⟨x, hx, y, hy, h, by simp⟩, ?_⟩
    rintro ⟨column, -, row, -, h, hm⟩
    obtain ⟨rfl, rfl⟩ := of_decide_eq_true hm
    exact h

/-- The last `n` bits of a byte drawn in row `y`. -/
def lowLit (x y : Nat) (byte : UInt8) (n column row : Nat) : Bool :=
  decide (row = y ∧ x + 8 ≤ column + n) && byteLit x byte column

theorem lowLit_of_lt {x y n column : Nat} (byte : UInt8) (h : column + n < x + 8) (row : Nat) :
    lowLit x y byte n column row = false := by
  have hn : ¬ x + 8 ≤ column + n := Nat.not_le.mpr h
  simp [lowLit, hn]

theorem lowLit_zero (x y : Nat) (byte : UInt8) (column row : Nat) :
    lowLit x y byte 0 column row = false := by
  rcases Nat.lt_or_ge column (x + 8) with h | h
  · exact lowLit_of_lt byte h row
  · have hlt : ¬ column < x + 8 := Nat.not_lt.mpr h
    simp [lowLit, byteLit, hlt]

theorem lowLit_succ {x y n : Nat} (byte : UInt8) (hn : n < 8) (column row : Nat) :
    lowLit x y byte (n + 1) column row
      = ((decide (row = y ∧ column = x + (7 - n)) && byte.toNat.testBit n)
          || lowLit x y byte n column row) := by
  rcases Nat.lt_trichotomy column (x + (7 - n)) with h | rfl | h
  · rw [lowLit_of_lt byte (by omega), lowLit_of_lt byte (by omega)]
    simp [Nat.ne_of_lt h]
  · rw [lowLit_of_lt (n := n) byte (by omega)]
    have h₁ : x + 8 ≤ x + (7 - n) + (n + 1) := by omega
    have h₂ : x + (7 - n) < x + 8 := by omega
    have h₃ : 7 - (7 - n) = n := by omega
    simp [lowLit, byteLit, h₁, h₂, h₃]
  · have h₁ : x + 8 ≤ column + (n + 1) := by omega
    have h₂ : x + 8 ≤ column + n := by omega
    simp [lowLit, h₁, h₂, Nat.ne_of_gt h]

/-- A sum is taken only while the one before it was on the screen, so none
gets near the limit. -/
theorem scanByte?_spec {x y n : Nat} (byte : UInt8) (hy : y < 32) (hn : n ≤ 8)
    (hx : x + (8 - n) < sumLimit) (p : Display × Bool) :
    ∃ q, scanByte? x y byte n p = some q ∧ Flipped (lowLit x y byte n) p q := by
  induction n generalizing p with
  | zero => exact ⟨p, rfl, Flipped.refl (fun column row _ _ => lowLit_zero ..) p⟩
  | succ n ih =>
      have hsum : sum? x (7 - n) = some (x + (7 - n)) := sum?_of_lt (by omega)
      simp only [scanByte?, hsum, Option.bind_eq_bind, Option.bind_some]
      split
      · rename_i hedge
        have hle : 64 ≤ x + (7 - n) := hedge
        exact ⟨p, rfl, Flipped.refl (fun column row hc _ => lowLit_of_lt byte (by omega) row) p⟩
      · rename_i hedge
        have hcolumn : x + (7 - n) < 64 := Nat.lt_of_not_le hedge
        split
        · rename_i hbit
          obtain ⟨q, hq, hflip⟩ := flip?_spec p hcolumn hy
          obtain ⟨r, hr, hrest⟩ := ih (by omega) (lt_sumLimit (by omega)) q
          refine ⟨r, by rw [hq]; exact hr, (hflip.trans hrest ?_).congr ?_⟩
          · intro column row hm
            obtain ⟨-, rfl⟩ := of_decide_eq_true hm
            exact lowLit_of_lt byte (by omega) row
          · intro column row _ _
            rw [lowLit_succ byte (by omega), hbit, Bool.and_true]
        · rename_i hbit
          obtain ⟨q, hq, hrest⟩ := ih (by omega) (lt_sumLimit (by omega)) p
          refine ⟨q, hq, hrest.congr fun column row _ _ => ?_⟩
          rw [lowLit_succ byte (by omega), Bool.eq_false_iff.mpr hbit, Bool.and_false,
            Bool.false_or]

theorem lowLit_eight (x y : Nat) (byte : UInt8) (column row : Nat) :
    lowLit x y byte 8 column row = (decide (row = y) && byteLit x byte column) := by
  by_cases h : x ≤ column
  · simp [lowLit, h]
  · simp [lowLit, byteLit, h]

theorem scanFrom?_spec {x y k : Nat} (s : Sprite) (hx : x < sumLimit) (hy : y + k < sumLimit)
    (p : Display × Bool) :
    ∃ q, scanFrom? x y k s p = some q ∧ Flipped (s.lit x (y + k)) p q := by
  induction s generalizing k p with
  | nil => exact ⟨p, rfl, Flipped.refl (fun column row _ _ => Sprite.lit_nil ..) p⟩
  | cons byte s ih =>
      simp only [scanFrom?, sum?_of_lt hy, Option.bind_eq_bind, Option.bind_some]
      split
      · rename_i hedge
        refine ⟨p, rfl, Flipped.refl (fun column row _ hr => ?_) p⟩
        have hlt : ¬ y + k ≤ row := by
          simp only [height] at hedge
          omega
        simp [Sprite.lit, hlt]
      · rename_i hedge
        have hrow : y + k < 32 := Nat.lt_of_not_le hedge
        obtain ⟨q, hq, hflip⟩ := scanByte?_spec byte hrow (Nat.le_refl 8) hx p
        obtain ⟨r, hr, hrest⟩ := ih (k := k + 1) (lt_sumLimit (by omega)) q
        refine ⟨r, by rw [hq]; exact hr, (hflip.trans hrest ?_).congr ?_⟩
        · intro column row hm
          rw [lowLit_eight, Bool.and_eq_true, decide_eq_true_eq] at hm
          have hlt : ¬ y + (k + 1) ≤ row := by omega
          simp [Sprite.lit, hlt]
        · intro column row _ _
          rw [Sprite.lit_cons, lowLit_eight, Nat.add_assoc]

/-- No sum and no position of the pixel loop is out of range, wherever the
sprite is drawn and however long it is. -/
theorem scan?_eq (d : Display) {x y : Nat} (s : Sprite) (hx : x < sumLimit) (hy : y < sumLimit) :
    d.scan? x y s = some (d.draw x y s, d.collides x y s) := by
  obtain ⟨q, hq, hflip⟩ := scanFrom?_spec (k := 0) s hx hy (d, false)
  rw [scan?, hq, hflip.unique (d.flipped_draw x y s)]

/-! ## What is seen of a drawing -/

theorem pixel_of_not_lt (d : Display) {x y : Nat} (h : ¬ (x < 64 ∧ y < 32)) :
    d.pixel x y = false := by
  refine d.pixel_of_le ?_
  simp only [width, height]
  omega

theorem lt_of_pixel {d : Display} {x y : Nat} (h : d.pixel x y = true) : x < 64 ∧ y < 32 := by
  refine Decidable.byContradiction fun hout => ?_
  rw [d.pixel_of_not_lt hout] at h
  cases h

/-- The flag can be read off the two displays: a pixel that was lit is
turned over exactly if it is not lit any more. -/
theorem Flipped.flag_iff_turned_off {mask : Nat → Nat → Bool} {p q : Display × Bool}
    (hq : Flipped mask p q) :
    q.2 = true ↔
      p.2 = true ∨ ∃ x y, p.1.pixel x y = true ∧ q.1.pixel x y = false := by
  rw [hq.flag]
  refine or_congr_right ⟨?_, ?_⟩
  · rintro ⟨x, hx, y, hy, hlit, hmask⟩
    exact ⟨x, y, hlit, by rw [hq.pixel x y hx hy, hlit, hmask]; rfl⟩
  · rintro ⟨x, y, hlit, hoff⟩
    obtain ⟨hx, hy⟩ := lt_of_pixel hlit
    rw [hq.pixel x y hx hy, hlit, Bool.true_xor, Bool.not_eq_false'] at hoff
    exact ⟨x, hx, y, hy, hlit, hoff⟩

theorem pixel_draw_eq (d : Display) (x y : Nat) (s : Sprite) (column row : Nat) :
    (d.draw x y s).pixel column row
      = (d.pixel column row
          ^^ decide ((column < 64 ∧ row < 32) ∧ s.lit x y column row = true)) := by
  by_cases hin : column < 64 ∧ row < 32
  · rw [(d.flipped_draw x y s).pixel column row hin.1 hin.2]
    simp [hin]
  · rw [pixel_of_not_lt _ hin, pixel_of_not_lt _ hin]
    simp [hin]

/-- **A sprite is drawn pixel by pixel.** The corner of the sprite can be
any two 64-bit words and the sprite as long as one likes: no sum of the
pixel loop overflows and no position lies behind the last pixel. In the end
the pixels on the screen are turned over that a set bit of the sprite falls
on, each once, and no other is. The flag says that a pixel went out. -/
theorem drawn_pixel_by_pixel (d : Display) (x y : UInt64) (s : Sprite) :
    let left := x.toNat
    let top := y.toNat
    d.scan? left top s = some (d.draw left top s, d.collides left top s)
    ∧ (∀ column row, (d.draw left top s).pixel column row
        = (d.pixel column row
            ^^ decide ((column < 64 ∧ row < 32)
              ∧ (left ≤ column ∧ column < left + 8) ∧ (top ≤ row ∧ row < top + s.length)
              ∧ (s[row - top]?.getD 0).toNat.testBit (7 - (column - left)) = true)))
    ∧ (d.collides left top s = true ↔
        ∃ column row, d.pixel column row = true
          ∧ (d.draw left top s).pixel column row = false) := by
  intro left top
  refine ⟨d.scan?_eq s x.toNat_lt y.toNat_lt, ?_, ?_⟩
  · intro column row
    rw [pixel_draw_eq]
    simp only [Sprite.lit_iff]
  · have hflag := (d.flipped_draw left top s).flag_iff_turned_off
    simpa using hflag

end Display

end Chip8

import Mathlib.Data.Set.Card
import Chip8.Console.Title
import Chip8.Proofs.LitPixels

/-!
# Views of a display

A display can be asked for one pixel, for its rows, for the number of lit
pixels, for a text, and whether it equals another. All of them read the same
2048 bits, row after row, which drawing turns over one at a time
(`Display.bits_flip?`).

Each view is tied to these bits by one lemma: a pixel to its position, a row
to its slice of them (`toLists_eq_slices`), the rows together to all of them
(`flatten_toLists`), the text to the rows (`lines_textWith`). So a view that
agrees on two displays agrees with every other view (`views_agree`).
-/

namespace Chip8

namespace Display

/-- The pixels in one array: the one in column `x` of row `y` has position
`64 * y + x`. -/
def bits (d : Display) : Vector Bool 2048 := Vector.ofFn fun i => d.pixel (i % 64) (i / 64)

/-- The rows as lines of text, with a character for each pixel. -/
def textWith (glyph : Bool → Char) (d : Display) : String :=
  String.join (d.toLists.map fun row => String.ofList (row.map glyph) ++ "\n")

theorem text_eq_textWith (d : Display) :
    d.text = d.textWith fun lit => if lit then '#' else '.' := rfl

/-! ## The bits -/

theorem getElem_bits (d : Display) {i : Nat} (h : i < 2048) :
    d.bits[i] = d.pixel (i % 64) (i / 64) := by
  simp [bits]

theorem getElem?_bits (d : Display) {x y : Nat} (hx : x < 64) (hy : y < 32) :
    d.bits[64 * y + x]? = some (d.pixel x y) := by
  have hcolumn : (64 * y + x) % 64 = x := by omega
  have hrow : (64 * y + x) / 64 = y := by omega
  rw [Vector.getElem?_eq_getElem (by omega), getElem_bits, hcolumn, hrow]

theorem bits_injective {d d' : Display} (h : d.bits = d'.bits) : d = d' := by
  refine ext_pixel fun x y hx hy => Option.some.inj ?_
  rw [← d.getElem?_bits hx hy, h, d'.getElem?_bits hx hy]

/-- One step of drawing turns over one bit, the one whose position it has
computed, and reads no other. -/
theorem bits_flip? (p : Display × Bool) {i : Nat} (h : i < 2048) :
    ∃ q, flip? p i = some q ∧ q.1.bits = p.1.bits.set i (!p.1.bits[i])
      ∧ q.2 = (p.2 || p.1.bits[i]) := by
  have hrow : i / 64 < 32 := by omega
  have hplace : i / 64 * width + i % 64 = i := by simp only [width]; omega
  obtain ⟨q, hq, hflip⟩ := flip?_spec p (Nat.mod_lt i (by decide)) hrow
  rw [hplace] at hq
  refine ⟨q, hq, Vector.ext fun j hj => ?_, ?_⟩
  · rw [getElem_bits, hflip.pixel _ _ (Nat.mod_lt j (by decide)) (by omega), Vector.getElem_set,
      getElem_bits, getElem_bits]
    by_cases hij : i = j
    · simp [hij]
    · have hne : ¬ (j / 64 = i / 64 ∧ j % 64 = i % 64) := by omega
      simp [hij, hne]
  · rw [Bool.eq_iff_iff, hflip.flag, Bool.or_eq_true, getElem_bits]
    refine or_congr_right ⟨?_, fun hlit => ?_⟩
    · rintro ⟨x, -, y, -, hlit, hmask⟩
      obtain ⟨rfl, rfl⟩ := of_decide_eq_true hmask
      exact hlit
    · exact ⟨i % 64, Nat.mod_lt i (by decide), i / 64, hrow, hlit, by simp⟩

/-! ## Rows -/

/-- The bits of row `y`. -/
def slice (d : Display) (y : Nat) : List Bool := (d.bits.toList.drop (64 * y)).take 64

theorem slice_eq (d : Display) {y : Nat} (hy : y < 32) :
    d.slice y = (List.range 64).map fun x => d.pixel x y := by
  refine List.ext_getElem? fun x => ?_
  rw [slice, List.getElem?_take, List.getElem?_map]
  split
  · rename_i hx
    rw [List.getElem?_drop, Vector.getElem?_toList, d.getElem?_bits hx hy, List.getElem?_range hx,
      Option.map_some]
  · rename_i hx
    rw [List.getElem?_eq_none (by simpa using hx), Option.map_none]

theorem toLists_eq_slices (d : Display) : d.toLists = (List.range 32).map d.slice := by
  rw [toLists_eq]
  exact List.map_congr_left fun y hy => (d.slice_eq (List.mem_range.mp hy)).symm

theorem flatten_slices {α : Type} (l : List α) (k n : Nat) :
    ((List.range n).map fun i => (l.drop (k * i)).take k).flatten = l.take (k * n) := by
  induction n with
  | zero => simp
  | succ n ih =>
      rw [List.range_succ, List.map_append, List.flatten_append, ih, Nat.mul_succ, List.take_add]
      simp

theorem flatten_toLists (d : Display) : d.toLists.flatten = d.bits.toList := by
  have hall : d.bits.toList.length ≤ 64 * 32 := by simp
  rw [toLists_eq_slices, ← List.take_of_length_le hall]
  exact flatten_slices d.bits.toList 64 32

/-! ## Texts -/

section Texts

variable {glyph : Bool → Char}

theorem toList_textWith (d : Display) :
    (d.textWith glyph).toList = (d.toLists.map (·.map glyph)).flatMap fun l => l ++ ['\n'] := by
  rw [textWith, String.toList_join, List.flatMap_map, List.flatMap_map]
  refine List.flatMap_congr fun row _ => ?_
  rw [String.toList_append, String.toList_ofList]
  rfl

/-- A text has a line for each row, and a character for each pixel of it. -/
theorem lines_textWith (hg : ∀ lit, glyph lit ≠ '\n' ∧ glyph lit ≠ '\r') (d : Display) :
    Title.lines (d.textWith glyph).toList = d.toLists.map (·.map glyph) := by
  rw [toList_textWith, Title.lines_flatMap]
  intro l hl
  obtain ⟨row, -, rfl⟩ := List.mem_map.mp hl
  constructor
  · intro hc
    obtain ⟨lit, -, h⟩ := List.mem_map.mp hc
    exact (hg lit).1 h
  · intro hc
    obtain ⟨lit, -, h⟩ := List.mem_map.mp hc
    exact (hg lit).2 h

theorem textWith_injective (hg : ∀ lit, glyph lit ≠ '\n' ∧ glyph lit ≠ '\r')
    (hinj : glyph.Injective) {d d' : Display} (h : d.textWith glyph = d'.textWith glyph) :
    d.toLists = d'.toLists := by
  have hlines := congrArg (fun s => Title.lines s.toList) h
  rw [lines_textWith hg, lines_textWith hg] at hlines
  exact List.map_injective_iff.mpr (List.map_injective_iff.mpr hinj) hlines

end Texts

/-! ## All of them -/

theorem eq_of_toLists_eq {d d' : Display} (h : d.toLists = d'.toLists) : d = d' := by
  refine bits_injective (Vector.toList_inj.mp ?_)
  rw [← d.flatten_toLists, h, d'.flatten_toLists]

theorem eq_of_text_eq {d d' : Display} (h : d.text = d'.text) : d = d' :=
  eq_of_toLists_eq (textWith_injective (by decide) (by decide) h)

theorem toList_text_eq (d : Display) :
    d.text.toList = (List.range 32).flatMap fun y =>
      ((List.range 64).map fun x => if d.pixel x y then '#' else '.') ++ ['\n'] := by
  rw [text_eq_textWith, toList_textWith, toLists_eq, List.map_map, List.flatMap_map]
  refine List.flatMap_congr fun y _ => ?_
  rw [Function.comp_apply, List.map_map]
  rfl

theorem ncard_lit (d : Display) : {p : Nat × Nat | d.pixel p.1 p.2 = true}.ncard = d.litCount := by
  have hset : {p : Nat × Nat | d.pixel p.1 p.2 = true} = d.litPixels := by
    ext ⟨x, y⟩
    exact mem_litPixels.symm
  rw [hset, Set.ncard_coe_finset, litCount_eq_card]

/-- **All views of a display agree.** Whatever was drawn, the pixel in
column `x` of row `y` is bit `64 * y + x`, the bit that drawing turns over
there, and outside the screen no pixel is lit. The rows are 32 slices of 64
bits and show pixel for pixel what `pixel` says; the number of lit bits is the
number of places at which `pixel` says so; the text has a line for each row
and a character for each pixel. So two displays are equal if they agree
in any one of these views, and then they agree in all. -/
theorem views_agree (d : Display) :
    (∀ x y, x < 64 → y < 32 → d.bits[64 * y + x]? = some (d.pixel x y))
    ∧ (∀ x y, 64 ≤ x ∨ 32 ≤ y → d.pixel x y = false)
    ∧ (∀ hit i, ∀ h : i < 2048, ∃ q, flip? (d, hit) i = some q
        ∧ q.1.bits = d.bits.set i (!d.bits[i]) ∧ q.2 = (hit || d.bits[i]))
    ∧ (d.toLists = (List.range 32).map fun y => (d.bits.toList.drop (64 * y)).take 64)
    ∧ (d.toLists = (List.range 32).map fun y => (List.range 64).map fun x => d.pixel x y)
    ∧ d.litCount = d.bits.toList.count true
    ∧ d.litCount = {p : Nat × Nat | d.pixel p.1 p.2 = true}.ncard
    ∧ (d.text.toList = (List.range 32).flatMap fun y =>
        ((List.range 64).map fun x => if d.pixel x y then '#' else '.') ++ ['\n'])
    ∧ ∀ d', [d = d', ∀ x y, d.pixel x y = d'.pixel x y, d.toLists = d'.toLists,
        d.text = d'.text, d.bits = d'.bits].TFAE := by
  refine ⟨fun x y hx hy => d.getElem?_bits hx hy, fun x y h => d.pixel_of_le h,
    fun hit i h => bits_flip? (d, hit) h, d.toLists_eq_slices, d.toLists_eq, ?_,
    d.ncard_lit.symm, d.toList_text_eq, fun d' => ?_⟩
  · rw [litCount, flatten_toLists]
  · refine List.tfae_of_forall (d = d') _ fun view hview => ?_
    simp only [List.mem_cons, List.not_mem_nil, or_false] at hview
    rcases hview with rfl | rfl | rfl | rfl | rfl
    · exact Iff.rfl
    · exact ⟨fun h => ext_pixel fun x y _ _ => h x y, by rintro rfl; exact fun _ _ => rfl⟩
    · exact ⟨eq_of_toLists_eq, congrArg toLists⟩
    · exact ⟨eq_of_text_eq, congrArg text⟩
    · exact ⟨bits_injective, congrArg bits⟩

/-- The pixel in the lower right corner, which is the last bit, and the two
places next to it outside the screen. -/
theorem views_agree_at_corner :
    let d := blank.draw 63 31 [0xC0, 0xFF]
    (63 < 64 ∧ 31 < 32 ∧ 2047 < 2048)
    ∧ d.bits[2047]? = some (d.pixel 63 31)
    ∧ d.pixel 63 31 = true ∧ d.pixel 64 31 = false ∧ d.pixel 63 32 = false
    ∧ ∃ q, flip? (d, false) 2047 = some q ∧ q.1.bits = d.bits.set 2047 (!d.bits[2047]) := by
  intro d
  have h : 63 < 64 ∧ 31 < 32 ∧ 2047 < 2048 := by decide
  have ⟨hx, hy, hi⟩ := h
  obtain ⟨hbit, hout, hflip, -⟩ := d.views_agree
  obtain ⟨q, hq, hset, -⟩ := hflip false 2047 hi
  refine ⟨h, hbit 63 31 hx hy, by decide, ?_, ?_, q, hq, hset⟩
  · exact hout 64 31 (Or.inl (Nat.le_refl 64))
  · exact hout 63 32 (Or.inr (Nat.le_refl 32))

end Display

end Chip8

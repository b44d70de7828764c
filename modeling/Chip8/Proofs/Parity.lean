import Mathlib.Data.List.DropRight
import Chip8.Proofs.Drawing

/-!
# What many draws leave

A draw turns over the pixels that its sprite covers, so between two clears a
pixel keeps of all draws only the parity of how many covered it
(`pixel_edits`). The induction is on the last edit: a draw adds one to a
number, a clear forgets both the number and what was there before.

Nothing else is kept, neither the order of the draws (`edits_perm`) nor a
draw that was made an even number of times (`edits_filter_ne`).
-/

namespace Chip8

namespace Display

/-- One change of a display. -/
inductive Edit where
  | draw (x y : Nat) (s : Sprite)
  | clear
deriving Repr, DecidableEq

/-- The edit draws a set bit at this place. -/
def Edit.Covers (column row : Nat) : Edit → Prop
  | .draw x y s =>
      (x ≤ column ∧ column < x + 8) ∧ (y ≤ row ∧ row < y + s.length)
        ∧ (s[row - y]?.getD 0).toNat.testBit (7 - (column - x)) = true
  | .clear => False

instance (column row : Nat) : DecidablePred (Edit.Covers column row)
  | .draw _ _ _ => by
      unfold Edit.Covers
      infer_instance
  | .clear => inferInstanceAs (Decidable False)

def edit (d : Display) : Edit → Display
  | .draw x y s => d.draw x y s
  | .clear => blank

/-- The display after a sequence of edits. -/
def edits (d : Display) (l : List Edit) : Display := l.foldl edit d

/-- The edits after the last clear. -/
def sinceClear (l : List Edit) : List Edit := l.rtakeWhile (· ≠ .clear)

/-! ## One edit -/

theorem covers_draw_iff {x y column row : Nat} {s : Sprite} :
    Edit.Covers column row (.draw x y s) ↔ s.lit x y column row = true := Sprite.lit_iff.symm

theorem pixel_edit_draw (d : Display) {x y column row : Nat} {s : Sprite} (hc : column < 64)
    (hr : row < 32) :
    (d.edit (.draw x y s)).pixel column row
      = (d.pixel column row ^^ decide (Edit.Covers column row (.draw x y s))) := by
  have h := (d.flipped_draw x y s).pixel column row hc hr
  simpa only [edit, covers_draw_iff, Bool.decide_eq_true] using h

/-! ## A sequence of edits -/

theorem edits_append (d : Display) (l₁ l₂ : List Edit) :
    d.edits (l₁ ++ l₂) = (d.edits l₁).edits l₂ := List.foldl_append

theorem edits_concat (d : Display) (l : List Edit) (e : Edit) :
    d.edits (l ++ [e]) = (d.edits l).edit e := edits_append d l [e]

theorem sinceClear_of_not_mem {l : List Edit} (h : .clear ∉ l) : sinceClear l = l := by
  refine List.rtakeWhile_eq_self_iff.mpr fun e he => decide_eq_true ?_
  rintro rfl
  exact h he

/-- One more turns the parity over. -/
theorem decide_odd_add (n : Nat) (b : Bool) :
    decide ((n + if b then 1 else 0) % 2 = 1) = (decide (n % 2 = 1) ^^ b) := by
  cases b with
  | false => simp
  | true => by_cases h : n % 2 = 1 <;> simp [h] <;> omega

theorem pixel_edits (d : Display) (l : List Edit) {column row : Nat} (hc : column < 64)
    (hr : row < 32) :
    (d.edits l).pixel column row
      = ((decide (.clear ∉ l) && d.pixel column row)
          ^^ decide ((sinceClear l).countP (Edit.Covers column row) % 2 = 1)) := by
  induction l using List.reverseRecOn with
  | nil => simp [edits, sinceClear]
  | append_singleton l e ih =>
      cases e with
      | clear => simp [edits_concat, edit, sinceClear]
      | draw x y s =>
          have hsince : sinceClear (l ++ [.draw x y s]) = sinceClear l ++ [.draw x y s] :=
            List.rtakeWhile_concat_pos _ _ _ (by simp)
          have hclear : Edit.clear ∉ l ++ [.draw x y s] ↔ .clear ∉ l := by simp
          rw [edits_concat, pixel_edit_draw _ hc hr, ih, hsince, List.countP_append,
            List.countP_singleton, decide_odd_add, ← Bool.xor_assoc]
          simp only [hclear]

/-- Without a clear, what was there stays in and every draw counts. -/
theorem pixel_edits_of_not_mem (d : Display) {l : List Edit} (hl : .clear ∉ l) {column row : Nat}
    (hc : column < 64) (hr : row < 32) :
    (d.edits l).pixel column row
      = (d.pixel column row ^^ decide (l.countP (Edit.Covers column row) % 2 = 1)) := by
  rw [pixel_edits d l hc hr, sinceClear_of_not_mem hl, decide_eq_true hl, Bool.true_and]

theorem edits_perm (d : Display) {l l' : List Edit} (hl : .clear ∉ l) (h : l.Perm l') :
    d.edits l = d.edits l' := by
  have hl' : .clear ∉ l' := fun hm => hl (h.mem_iff.mpr hm)
  refine ext_pixel fun column row hc hr => ?_
  rw [pixel_edits_of_not_mem d hl hc hr, pixel_edits_of_not_mem d hl' hc hr, h.countP_eq]

theorem countP_filter_ne (p : Edit → Bool) (l : List Edit) (e : Edit) :
    l.countP p = (l.filter (· ≠ e)).countP p + if p e then l.count e else 0 := by
  rw [List.countP_eq_countP_filter_add l p (· ≠ e)]
  congr 1
  have hsame : l.filter (fun a => !decide (a ≠ e)) = List.replicate (l.count e) e := by
    simp [← List.filter_eq]
  rw [hsame, List.countP_replicate]

theorem edits_filter_ne (d : Display) {l : List Edit} {e : Edit} (hl : .clear ∉ l)
    (h : l.count e % 2 = 0) : d.edits l = d.edits (l.filter (· ≠ e)) := by
  have hl' : .clear ∉ l.filter (· ≠ e) := fun hm => hl (List.mem_of_mem_filter hm)
  refine ext_pixel fun column row hc hr => ?_
  have hparity : l.countP (Edit.Covers column row) % 2
      = (l.filter (· ≠ e)).countP (Edit.Covers column row) % 2 := by
    rw [countP_filter_ne _ l e]
    split <;> omega
  rw [pixel_edits_of_not_mem d hl hc hr, pixel_edits_of_not_mem d hl' hc hr, hparity]

/-- **The display is the exclusive-or ledger of its draws.** A pixel is in
the end what it was at the start, unless a clear came in between, turned
over once for every draw after the last clear that covers it with a set
bit. So draws between two clears can be made in any order, and one that is
made an even number of times among them need not be made at all. -/
theorem ledger_of_edits (d : Display) :
    (∀ l column row, column < 64 → row < 32 →
      (d.edits l).pixel column row
        = ((decide (.clear ∉ l) && d.pixel column row)
            ^^ decide ((sinceClear l).countP (Edit.Covers column row) % 2 = 1)))
    ∧ (∀ before draws draws' after, .clear ∉ draws → draws.Perm draws' →
        d.edits (before ++ draws ++ after) = d.edits (before ++ draws' ++ after))
    ∧ ∀ before draws after e, .clear ∉ draws → draws.count e % 2 = 0 →
        d.edits (before ++ draws ++ after)
          = d.edits (before ++ draws.filter (· ≠ e) ++ after) := by
  refine ⟨fun l column row hc hr => d.pixel_edits l hc hr, ?_, ?_⟩
  · intro before draws draws' after hdraws hperm
    simp only [edits_append, edits_perm _ hdraws hperm]
  · intro before draws after e hdraws heven
    simp only [edits_append, edits_filter_ne _ hdraws heven]

/-- Sprites across the lower right corner of the screen. -/
theorem ledger_of_corner :
    let e := Edit.draw 60 31 [0xFF, 0xFF]
    let f := Edit.draw 58 30 [0x04, 0x04]
    (63 < 64 ∧ 31 < 32 ∧ .clear ∉ [e, f, e] ∧ [e, f, e].Perm [f, e, e]
      ∧ [e, f, e].count e % 2 = 0)
    ∧ (blank.edits [e, .clear, f, e, e]).pixel 63 31 = true
    ∧ blank.edits ([f, .clear] ++ [e, f, e] ++ [e]) = blank.edits ([f, .clear] ++ [f, e, e] ++ [e])
    ∧ blank.edits ([f, .clear] ++ [e, f, e] ++ [e]) = blank.edits ([f, .clear] ++ [f] ++ [e]) := by
  intro e f
  obtain ⟨hpixel, hperm, heven⟩ := ledger_of_edits blank
  have hdraws : .clear ∉ [e, f, e] := by decide
  have hp : [e, f, e].Perm [f, e, e] := by decide
  have hc : [e, f, e].count e % 2 = 0 := by decide
  refine ⟨⟨by decide, by decide, hdraws, hp, hc⟩, ?_, ?_, ?_⟩
  · rw [hpixel _ 63 31 (by decide) (by decide), pixel_blank]
    decide
  · exact hperm [f, .clear] _ _ [e] hdraws hp
  · exact heven [f, .clear] _ [e] e hdraws hc

end Display

end Chip8

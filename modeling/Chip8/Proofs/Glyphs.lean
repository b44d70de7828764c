import Chip8.Proofs.StraightLine

/-!
# The font stays

A program is loaded behind the font and every write leaves the font alone,
so its bytes are the same in every machine that a program can come to
(`Reachable.holds_font`). A glyph instruction therefore points the index at
the picture of a digit, and a sprite of five rows drawn from there is that
picture, however much runs in between without moving the index.
-/

namespace Chip8

/-- The rows of the picture of a digit. -/
def Font.glyph (digit : Nat) : Sprite := (glyphs.drop (5 * digit)).take 5

/-! ## Nothing writes into the font -/

namespace Memory

theorem Holds.writeList_font {m : Memory} (h : m.Holds 0x50 Font.glyphs) (a : Address)
    (l : List UInt8) : (m.writeList a l).Holds 0x50 Font.glyphs := by
  intro s b hs hb
  obtain ⟨hlt, -⟩ := List.getElem?_eq_some_iff.mp hb
  have hstart : fontStart = 0x50 := rfl
  have hfont : InFont s := ⟨hs, by omega⟩
  rw [get_writeList_of_inFont m a l hfont]
  exact h s b hs hb

end Memory

namespace Machine

theorem holds_font_act {m : Machine} (h : m.memory.Holds 0x50 Font.glyphs) (a : Action) :
    (m.act a).machine.memory.Holds 0x50 Font.glyphs := by
  cases a with
  | setKeys codes => exact h
  | cycle t =>
      rcases m.cycle_cases t with ⟨-, hc⟩ | ⟨-, -, hc⟩ | ⟨i, hi, -⟩
      · rw [act, hc]
        exact h
      · rw [act, hc]
        exact h
      · rw [act, machine_cycle_of_peek t hi, memory_execute]
        exact h.writeList_font _ _

theorem Reachable.holds_font {m : Machine} (h : m.Reachable) :
    m.memory.Holds 0x50 Font.glyphs := by
  induction h with
  | load hl =>
      obtain ⟨-, rfl⟩ := load_eq_ok_iff.mp hl
      exact Memory.holds_initial.place (by decide) _
  | act a _ ih => exact holds_font_act ih a

/-! ## Glyphs -/

/-- The index points at the picture of a digit, and that is what a sprite of
five rows is there. -/
def AtGlyph (m : Machine) (digit : Nat) : Prop :=
  m.index.toNat = 0x50 + 5 * digit ∧ m.memory.sprite m.index 5 = Font.glyph digit

theorem atGlyph_of_index {m : Machine} (hm : m.memory.Holds 0x50 Font.glyphs) {digit : Nat}
    (hd : digit < 16) (h : m.index.toNat = 0x50 + 5 * digit) : m.AtGlyph digit := by
  have hlen : Font.glyphs.length = 80 := rfl
  refine ⟨h, ?_⟩
  show m.memory.readList m.index 5 = _
  exact hm.readList h (by omega) (by decide)

theorem atGlyph_execute {m : Machine} (hm : m.memory.Holds 0x50 Font.glyphs) (x : Register) :
    (m.execute (.glyph x)).machine.AtGlyph ((m.registers.get x).toNat % 16) := by
  refine atGlyph_of_index (m := (m.execute (.glyph x)).machine) hm (Nat.mod_lt _ (by decide)) ?_
  show (Memory.glyphAddress (m.registers.get x)).toNat = _
  rw [Memory.glyphAddress, UInt16.toNat_ofNat', Memory.fontStart, Font.glyphHeight]
  omega

theorem AtGlyph.run {m : Machine} {digit : Nat} {l : List Action} (h : m.AtGlyph digit)
    (hd : digit < 16) (hm : (m.run l).memory.Holds 0x50 Font.glyphs)
    (hl : ∀ i ∈ m.executed l, ¬ i.Writes .index) : (m.run l).AtGlyph digit := by
  have hindex : (m.run l).index = m.index := run_agreeOn (p := .index) trivial hl
  refine atGlyph_of_index hm hd ?_
  rw [hindex]
  exact h.1

theorem AtGlyph.draw {m : Machine} {digit : Nat} (h : m.AtGlyph digit) (x y : Register) :
    (m.execute (.draw x y 5)).machine.display
      = m.display.draw ((m.registers.get x).toNat % 64) ((m.registers.get y).toNat % 32)
          (Font.glyph digit) := by
  rw [← h.2]
  rfl

/-- **The font is immutable.** In every machine that a program can come to,
whatever it has written, the font is what it was. A glyph instruction
points the index at the picture of the digit that the low half of its
register names; as long as nothing else moves the index, a sprite of five
rows is that picture, and a draw puts it on the display. -/
theorem font_of_reachable {m : Machine} (hm : m.Reachable) :
    (∀ k (hk : k < 80), m.memory.bytes[0x50 + k] = Font.glyphs[k])
    ∧ (∀ x, (m.execute (.glyph x)).machine.AtGlyph ((m.registers.get x).toNat % 16))
    ∧ ∀ x t l, m.peek = .ok (.glyph x) →
        (∀ i ∈ (m.cycle t).machine.executed l, ¬ i.Writes .index) →
        let digit := (m.registers.get x).toNat % 16
        let last := (m.cycle t).machine.run l
        last.AtGlyph digit
          ∧ ∀ y z t', last.peek = .ok (.draw y z 5) →
              (last.cycle t').machine.display
                = last.display.draw ((last.registers.get y).toNat % 64)
                    ((last.registers.get z).toNat % 32) (Font.glyph digit) := by
  have hfont := hm.holds_font
  refine ⟨?_, fun x => atGlyph_execute hfont x, ?_⟩
  · intro k hk
    have hlen : k < Font.glyphs.length := hk
    refine hfont ⟨0x50 + k, by omega⟩ _ (Nat.le_add_right _ _) ?_
    rw [Nat.add_sub_cancel_left]
    exact List.getElem?_eq_getElem hlen
  · intro x t l hx hl digit last
    have hglyph : (m.cycle t).machine.AtGlyph digit := by
      rw [machine_cycle_of_peek t hx]
      exact atGlyph_execute (m := (m.tick t).stepOver) hfont x
    have hlast : last.AtGlyph digit :=
      hglyph.run (Nat.mod_lt _ (by decide)) ((hm.act (.cycle t)).run l).holds_font hl
    refine ⟨hlast, ?_⟩
    intro y z t' hy
    rw [machine_cycle_of_peek t' hy]
    exact AtGlyph.draw (m := (last.tick t').stepOver) hlast y z

/-- Tries to write over the first glyph before it draws another one. -/
private def defacingSchedule : Schedule :=
  [(0, .setByte .first 0x3A), (9, .setIndex 0x50), (20000000, .save .first),
    (1, .glyph .first), (2, .draw .flag .flag 5)]

theorem font_of_defacing :
    let m := after defacingSchedule (.ofSeed 0) 0 3
    (m.Reachable ∧ m.peek = .ok (.glyph .first))
    ∧ m.memory.bytes[0x50] = 0xF0
    ∧ (m.cycle 1).machine.AtGlyph 10 := by
  intro m
  have hl : ∀ s ∈ defacingSchedule, s.2.WellFormed ∧ s.2.Straight := by decide
  have harrived₂ : Arrived defacingSchedule (.ofSeed 0) 0 2 :=
    arrived_of_stores_eq_zero (by decide) hl (by decide) (by decide)
  have hindex : (after defacingSchedule (.ofSeed 0) 0 2).index = 0x50 := by
    rw [harrived₂.eq_perform]
    rfl
  have harrived : Arrived defacingSchedule (.ofSeed 0) 0 3 := by
    refine harrived₂.succ (by decide) (t := 20000000) (i := .save .first) rfl trivial trivial ?_
    refine Spares.of_apart (Or.inl ?_)
    rw [hindex]
    decide
  have hm : m.Reachable := .run (.loaded _ _ (by decide)) _
  have hpeek : m.peek = .ok (.glyph .first) := harrived.peek (t := 1) (by decide) rfl trivial
  have hregister : m.registers.get .first = 0x3A := by
    show (after _ _ _ _).registers.get .first = _
    rw [harrived.eq_perform]
    rfl
  obtain ⟨hbytes, -, hglyph⟩ := font_of_reachable hm
  have hdigit := (hglyph .first 1 [] hpeek (by simp [executed])).1
  rw [run_nil, hregister] at hdigit
  exact ⟨⟨hm, hpeek⟩, hbytes 0 (by decide), hdigit⟩

end Machine

end Chip8

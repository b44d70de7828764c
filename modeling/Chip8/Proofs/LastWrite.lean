import Chip8.Proofs.Memory

/-!
# What a memory holds

A memory is changed by writes and by loads, some of which it refuses. What
lies at a position is there because of the last change that put something
there (`get_changes`): one more change either covers the position or leaves
it alone (`get_change`), and the font is never covered.

A data address names a position modulo the size of memory. An instruction
word does not wrap around, but where it lies in memory as a whole its two
bytes are the ones that are read.
-/

namespace Chip8

namespace Memory

/-- One change of a memory, as it is asked for. -/
inductive Change where
  | write (a : Address) (b : UInt8)
  | load (program : List UInt8)
deriving Repr, DecidableEq

/-- What the change puts at a position outside the font. A program that is
refused puts nothing anywhere. -/
def Change.byteAt? (s : Fin 4096) : Change → Option UInt8
  | .write a b => if a.toNat % 4096 = s.val then some b else none
  | .load program =>
      if program.length ≤ 3584 ∧ 0x200 ≤ s.val then program[s.val - 0x200]? else none

def change (m : Memory) : Change → Memory
  | .write a b => m.write a b
  | .load program =>
      match m.load program with
      | .ok m' => m'
      | .error _ => m

/-- The memory after a sequence of changes. -/
def changes (m : Memory) (l : List Change) : Memory := l.foldl change m

/-! ## One change -/

theorem get_change (m : Memory) (c : Change) (s : Fin 4096) :
    (m.change c).bytes.get s
      = if InFont s then m.bytes.get s else (c.byteAt? s).getD (m.bytes.get s) := by
  cases c with
  | write a b =>
      rw [change, get_write]
      by_cases hs : s = slot a
      · subst hs
        have hbyte : (Change.write a b).byteAt? (slot a) = some b := if_pos rfl
        by_cases hf : InFont (slot a) <;> simp [hf, hbyte]
      · have hne : a.toNat % 4096 ≠ s.val := fun h => hs (Fin.ext h.symm)
        simp [hs, hne, Change.byteAt?]
  | load program =>
      cases hload : m.load program with
      | ok m' =>
          obtain ⟨⟨-, hle⟩, rfl⟩ := load_eq_ok_iff.mp hload
          have hget : (m.change (.load program)).bytes.get s
              = if 0x200 ≤ s.val then program[s.val - 0x200]?.getD (m.bytes.get s)
                else m.bytes.get s := by
            simp only [change, hload]
            exact getElem_place m.bytes 0x200 program s.isLt
          rw [hget]
          by_cases hs : 0x200 ≤ s.val
          · have hf : ¬ InFont s := by rw [inFont_iff]; omega
            simp [hs, hf, hle, Change.byteAt?]
          · simp [hs, Change.byteAt?]
      | error f =>
          have hnone : (Change.load program).byteAt? s = none := by
            rcases load_eq_error_iff.mp hload with ⟨hempty, -⟩ | ⟨hlarge, -⟩
            · simp [Change.byteAt?, List.length_eq_zero_iff.mp hempty]
            · have hle : ¬ program.length ≤ 3584 := Nat.not_le.mpr hlarge
              simp [Change.byteAt?, hle]
          rw [hnone, Option.getD_none, ite_self]
          simp only [change, hload]

/-! ## A sequence of changes -/

theorem get_changes (m : Memory) (l : List Change) (s : Fin 4096) :
    (m.changes l).bytes.get s
      = if InFont s then m.bytes.get s
        else (l.filterMap (·.byteAt? s)).getLastD (m.bytes.get s) := by
  induction l generalizing m with
  | nil => simp [changes]
  | cons c l ih =>
      have hcons : m.changes (c :: l) = (m.change c).changes l := rfl
      rw [hcons, ih, get_change]
      by_cases hf : InFont s
      · simp [hf]
      · rw [if_neg hf, if_neg hf, if_neg hf, List.filterMap_cons]
        cases c.byteAt? s with
        | none => rfl
        | some b => exact (List.getLastD_cons ..).symm

/-- Before any change there is the font and nothing else. -/
theorem read_changes_initial (l : List Change) {a : Address} (h : ¬ InFont (slot a)) :
    (initial.changes l).read a = (l.filterMap (·.byteAt? (slot a))).getLastD 0 := by
  show (initial.changes l).bytes.get (slot a) = _
  rw [get_changes, if_neg h, get_initial_of_not_inFont h]

theorem read_changes_initial_of_inFont (l : List Change) {a : Address} (h : InFont (slot a)) :
    Font.glyphs[a.toNat % 4096 - 0x50]? = some ((initial.changes l).read a) := by
  have hlen : Font.glyphs.length = 80 := rfl
  have hpos : 0x50 ≤ a.toNat % 4096 ∧ a.toNat % 4096 < 0xA0 := inFont_slot_iff.mp h
  have hglyph : a.toNat % 4096 - 0x50 < Font.glyphs.length := by omega
  have hfont : initial.bytes.get (slot a) = Font.glyphs[a.toNat % 4096 - 0x50] :=
    holds_initial (slot a) _ hpos.1 (List.getElem?_eq_getElem hglyph)
  have hread : (initial.changes l).read a = initial.bytes.get (slot a) := by
    show (initial.changes l).bytes.get (slot a) = _
    rw [get_changes, if_pos h]
  rw [hread, hfont]
  exact List.getElem?_eq_getElem hglyph

theorem toNat_fetch (m : Memory) {a : Address} (h : a.toNat ≤ 0xFFE) :
    ∃ w, m.fetch a = .ok w
      ∧ w.toNat = 256 * (m.read a).toNat + (m.read (a + 1)).toNat :=
  ⟨_, m.fetch_of_le h, Word.toNat_ofBytes ..⟩

/-- **The last write wins.** After any changes of a new memory, a byte is
the one that the last change put there, or zero if none did; but the font
is what it always was. A program is refused if it is empty or too large,
and then nothing changes. An instruction word is made of the two bytes that
are read at its place, and there is none that would wrap around. -/
theorem last_write_wins (l : List Change) :
    let m := initial.changes l
    (∀ a, 0x50 ≤ a.toNat % 4096 ∧ a.toNat % 4096 ≤ 0x9F →
      Font.glyphs[a.toNat % 4096 - 0x50]? = some (m.read a))
    ∧ (∀ a, ¬ (0x50 ≤ a.toNat % 4096 ∧ a.toNat % 4096 ≤ 0x9F) →
      m.read a = (l.filterMap (·.byteAt? (slot a))).getLastD 0)
    ∧ (∀ program f, m.load program = .error f ↔
        (program.length = 0 ∧ f = .emptyProgram)
          ∨ 3584 < program.length ∧ f = .programTooLarge program.length 3584)
    ∧ (∀ program f, m.load program = .error f → m.change (.load program) = m)
    ∧ (∀ a, a.toNat ≤ 0xFFE →
        ∃ w, m.fetch a = .ok w
          ∧ w.toNat = 256 * (m.read a).toNat + (m.read (a + 1)).toNat)
    ∧ ∀ a, 0xFFE < a.toNat → m.fetch a = .error (.outOfBounds a) := by
  intro m
  have hfont : ∀ a : Address,
      InFont (slot a) ↔ 0x50 ≤ a.toNat % 4096 ∧ a.toNat % 4096 ≤ 0x9F := by
    intro a
    rw [inFont_slot_iff]
    omega
  refine ⟨?_, ?_, fun _ _ => load_eq_error_iff, ?_, fun _ => m.toNat_fetch,
    fun _ => m.fetch_of_lt⟩
  · intro a ha
    exact read_changes_initial_of_inFont l ((hfont a).mpr ha)
  · intro a ha
    exact read_changes_initial l (mt (hfont a).mp ha)
  · intro program f hload
    simp only [change, hload]

/-- A program is loaded, its first byte written over through another
address, the font left alone, and an empty program refused. -/
theorem last_write_wins_alias :
    let m := initial.changes
      [.load [0xAA, 0xBB], .write 0x1200 0x42, .write 0x50 0x00, .load []]
    (¬ (0x50 ≤ (0x200 : Address).toNat % 4096 ∧ (0x200 : Address).toNat % 4096 ≤ 0x9F)
      ∧ (0x50 ≤ (0x1050 : Address).toNat % 4096 ∧ (0x1050 : Address).toNat % 4096 ≤ 0x9F)
      ∧ (0x200 : Address).toNat ≤ 0xFFE
      ∧ 0xFFE < (0xFFF : Address).toNat
      ∧ m.load [] = .error .emptyProgram)
    ∧ m.read 0x200 = 0x42
    ∧ m.read 0x201 = 0xBB
    ∧ m.read 0x1050 = 0xF0
    ∧ m.change (.load []) = m
    ∧ m.fetch 0xFFF = .error (.outOfBounds 0xFFF) := by
  intro m
  obtain ⟨hfont, hbyte, hload, hkept, -, hout⟩ := last_write_wins
    [.load [0xAA, 0xBB], .write 0x1200 0x42, .write 0x50 0x00, .load []]
  have hempty : m.load [] = .error .emptyProgram := (hload [] _).mpr (Or.inl ⟨rfl, rfl⟩)
  refine ⟨⟨by decide, by decide, by decide, by decide, hempty⟩, ?_, ?_, ?_,
    hkept [] _ hempty, hout 0xFFF (by decide)⟩
  · exact hbyte 0x200 (by decide)
  · exact hbyte 0x201 (by decide)
  · exact (Option.some.inj (hfont 0x1050 (by decide))).symm

end Memory

end Chip8

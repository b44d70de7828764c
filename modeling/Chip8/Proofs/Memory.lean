import Chip8.Proofs.Run

/-!
# What lies where

`Memory.getElem_place` says what a byte is after a list of bytes was put
somewhere, and `Memory.Holds` that the list is still there. As long as it
is, the words of a loaded program can be read off the program
(`peek_of_holds`).
-/

namespace Chip8

namespace Memory

theorem getElem_place (bytes : Vector UInt8 4096) (i : Nat) (l : List UInt8) {k : Nat}
    (hk : k < 4096) :
    (place bytes i l)[k] = if i ≤ k then l[k - i]?.getD bytes[k] else bytes[k] := by
  induction l generalizing bytes i with
  | nil => simp [place]
  | cons b l ih =>
      rw [place, ih]
      rcases Nat.lt_trichotomy i k with hlt | heq | hgt
      · have h₁ : i + 1 ≤ k := hlt
        have h₂ : k - i = k - (i + 1) + 1 := by omega
        have hne : i ≠ k := Nat.ne_of_lt hlt
        simp [h₁, Nat.le_of_lt hlt, h₂, hne]
      · have h₁ : ¬ k + 1 ≤ k := by omega
        simp [heq, h₁]
      · have h₁ : ¬ i + 1 ≤ k := by omega
        have h₂ : ¬ i ≤ k := by omega
        have hne : i ≠ k := Nat.ne_of_gt hgt
        simp [h₁, h₂, hne]

/-- The bytes of the list lie in memory from position `start` on. -/
def Holds (m : Memory) (start : Nat) (l : List UInt8) : Prop :=
  ∀ (s : Fin 4096) b, start ≤ s.val → l[s.val - start]? = some b → m.bytes.get s = b

theorem holds_place (bytes : Vector UInt8 4096) (start : Nat) (l : List UInt8) :
    Holds ⟨place bytes start l⟩ start l := by
  intro s b hs hb
  show (place _ start l)[s.val] = b
  rw [getElem_place, if_pos hs, hb, Option.getD_some]

theorem holds_initial : initial.Holds 0x50 Font.glyphs := holds_place _ _ _

namespace Holds

variable {m : Memory} {start : Nat} {l : List UInt8} (h : m.Holds start l)
include h

theorem place {i : Nat} (hi : start + l.length ≤ i) (l' : List UInt8) :
    Holds ⟨Memory.place m.bytes i l'⟩ start l := by
  intro s b hs hb
  obtain ⟨hlt, -⟩ := List.getElem?_eq_some_iff.mp hb
  show (Memory.place _ i l')[s.val] = b
  rw [getElem_place, if_neg (by omega)]
  exact h s b hs hb

theorem read {k : Nat} {b : UInt8} {a : Address} (hk : l[k]? = some b)
    (ha : a.toNat = start + k) (hlt : start + k < 4096) : m.read a = b := by
  have hs : (slot a).val = start + k := by
    show a.toNat % 4096 = _
    omega
  refine h (slot a) b (hs ▸ Nat.le_add_right _ _) ?_
  rw [hs, Nat.add_sub_cancel_left, hk]

theorem fetch {k : Nat} {high low : UInt8} {a : Address} (hhigh : l[k]? = some high)
    (hlow : l[k + 1]? = some low) (ha : a.toNat = start + k) (hlt : start + k + 1 < 4096) :
    m.fetch a = .ok (.ofBytes high low) := by
  have hnext : (a + 1).toNat = start + (k + 1) := by
    rw [UInt16.toNat_add, UInt16.toNat_one]
    omega
  rw [fetch_of_le m (by omega), h.read hhigh ha (by omega), h.read hlow hnext (by omega)]

theorem readList {k n : Nat} {a : Address} (ha : a.toNat = start + k)
    (hn : k + n ≤ l.length) (hlt : start + l.length ≤ 4096) :
    m.readList a n = (l.drop k).take n := by
  induction n generalizing a k with
  | zero => rfl
  | succ n ih =>
      have hk : k < l.length := by omega
      have hnext : (a + 1).toNat = start + (k + 1) := by
        rw [UInt16.toNat_add, UInt16.toNat_one]
        omega
      rw [Memory.readList, h.read (List.getElem?_eq_getElem hk) ha (by omega),
        ih hnext (by omega), List.drop_eq_getElem_cons hk, List.take_succ_cons]

end Holds

theorem inFont_iff {s : Fin 4096} : InFont s ↔ 0x50 ≤ s.val ∧ s.val < 0xA0 := Iff.rfl

theorem inFont_slot_iff {a : Address} :
    InFont (slot a) ↔ 0x50 ≤ a.toNat % 4096 ∧ a.toNat % 4096 < 0xA0 := Iff.rfl

/-- Besides the font there is nothing until a program is loaded. -/
theorem get_initial_of_not_inFont {s : Fin 4096} (h : ¬ InFont s) : initial.bytes.get s = 0 := by
  have hlen : Font.glyphs.length = 80 := rfl
  show (place _ 0x50 _)[s.val] = 0
  rw [getElem_place _ _ _ s.isLt, Vector.getElem_replicate]
  split
  · rename_i hle
    rw [inFont_iff] at h
    rw [List.getElem?_eq_none (by omega), Option.getD_none]
  · rfl

end Memory

namespace Machine

/-- Nor is there anything behind the program. -/
theorem read_loaded_of_le {program : List UInt8} {random : Generator} {created : Time}
    {a : Address} (h : 0x200 + program.length ≤ a.toNat) (ha : a.toNat < 4096) :
    (loaded program random created).memory.read a = 0 := by
  have hs : a.toNat % 4096 = a.toNat := Nat.mod_eq_of_lt ha
  have hnone : program[a.toNat % 4096 - 0x200]? = none := List.getElem?_eq_none (by omega)
  have hfont : ¬ Memory.InFont (Memory.slot a) := by
    rw [Memory.inFont_slot_iff]
    omega
  show (Memory.place _ 0x200 program)[a.toNat % 4096] = 0
  rw [Memory.getElem_place, hnone, Option.getD_none, ite_self]
  exact Memory.get_initial_of_not_inFont hfont

theorem peek_of_holds {m : Machine} {program : List UInt8} (hm : m.memory.Holds 0x200 program)
    (k : Nat) {high low : UInt8} {i : Instruction} (hpc : m.pc.toNat = 0x200 + k) (hk : k + 1 < 3584)
    (hhigh : program[k]? = some high) (hlow : program[k + 1]? = some low)
    (hi : Instruction.decode? (.ofBytes high low) = some i) : m.peek = .ok i := by
  have hfetch := hm.fetch hhigh hlow hpc (by omega)
  simp only [peek, hfetch]
  exact Instruction.decode_eq_ok_iff.mpr hi

/-- The next instruction of a machine whose memory is still the one that
its program was loaded into. -/
theorem peek_of_program {m : Machine} (program : List UInt8) (k : Nat) {high low : UInt8}
    {i : Instruction} (hm : m.memory = ⟨Memory.place Memory.initial.bytes 0x200 program⟩)
    (hpc : m.pc.toNat = 0x200 + k) (hk : k + 1 < 3584) (hhigh : program[k]? = some high)
    (hlow : program[k + 1]? = some low)
    (hi : Instruction.decode? (.ofBytes high low) = some i) : m.peek = .ok i :=
  peek_of_holds (hm ▸ Memory.holds_place _ 0x200 program) k hpc hk hhigh hlow hi

end Machine

end Chip8

import Chip8.Proofs.Stores

/-!
# Saving and restoring registers

A save and a restore with the same register and the same index walk over
the same bytes, and neither moves the index. So a restore brings back what a
save has put down, but for the bytes that the font refused
(`get_restore_save`). And a save after a restore writes to every byte what
it holds already, so that it changes nothing (`Memory.writeList_readList`).
-/

namespace Chip8

namespace Memory

theorem write_read (m : Memory) (a : Address) : m.write a (m.read a) = m := by
  have hget (s : Fin 4096) : (m.write a (m.read a)).bytes.get s = m.bytes.get s := by
    rw [get_write]
    split
    · rename_i h
      rw [h.1]
      rfl
    · rfl
  have hbytes : (m.write a (m.read a)).bytes = m.bytes :=
    Vector.ext fun k hk => hget ⟨k, hk⟩
  exact congrArg Memory.mk hbytes

theorem writeList_readList (m : Memory) (a : Address) (n : Nat) :
    m.writeList a (m.readList a n) = m := by
  induction n generalizing a with
  | zero => rfl
  | succ n ih => rw [readList, writeList, write_read, ih]

end Memory

namespace Machine

theorem get_restore (m : Machine) (x r : Register) :
    (m.execute (.restore x)).machine.registers.get r
      = if r ≤ x then m.memory.bytes.get (Memory.behind m.index r) else m.registers.get r := by
  show (m.registers.setFrom 0 (m.memory.readList m.index (x.val + 1))).get r = _
  rw [Registers.get_setFrom_zero]
  split
  · rename_i h
    rw [Memory.getElem?_readList _ _ (Nat.lt_succ_of_le h), Option.getD_some]
    rfl
  · rename_i h
    have hlength : (m.memory.readList m.index (x.val + 1)).length ≤ r.val := by
      rw [Memory.length_readList]
      exact Nat.lt_of_not_le h
    rw [List.getElem?_eq_none hlength, Option.getD_none]

theorem get_save (m : Machine) {x r : Register} (h : r ≤ x) :
    (m.execute (.save x)).machine.memory.bytes.get (Memory.behind m.index r)
      = if Memory.InFont (Memory.behind m.index r)
        then m.memory.bytes.get (Memory.behind m.index r) else m.registers.get r := by
  have hlength := m.registers.length_takeTo x
  have hr : r.val < (m.registers.takeTo x).length := by
    rw [hlength]
    exact Nat.lt_succ_of_le h
  have hvalue : (m.registers.takeTo x)[r.val] = m.registers.get r :=
    (List.getElem?_eq_some_iff.mp (m.registers.getElem?_takeTo h)).2
  have hbyte := (m.stores_store (by omega)).covered r.val hr
  rw [hvalue] at hbyte
  exact hbyte

theorem get_restore_save (m : Machine) (x r : Register) :
    ((m.execute (.save x)).machine.execute (.restore x)).machine.registers.get r
      = if r ≤ x ∧ Memory.InFont (Memory.behind m.index r)
        then m.memory.bytes.get (Memory.behind m.index r) else m.registers.get r := by
  rw [get_restore]
  by_cases h : r ≤ x
  · rw [if_pos h]
    simp only [h, true_and]
    exact m.get_save h
  · rw [if_neg h, if_neg fun hr => h hr.1]
    rfl

/-- A save writes what the restore before it has read. -/
theorem save_restored (m : Machine) (x : Register) :
    let filled := (m.execute (.restore x)).machine
    (filled.execute (.save x)).machine = filled := by
  intro filled
  have hsaved : (filled.execute (.save x)).machine
      = { filled with
          memory := m.memory.writeList m.index (filled.registers.takeTo x) } := rfl
  have hbytes : filled.registers.takeTo x = m.memory.readList m.index (x.val + 1) :=
    Registers.takeTo_setFrom _ (Memory.length_readList ..)
  rw [hsaved, hbytes, Memory.writeList_readList]
  rfl

/-- **Saving and restoring undo each other, but for the font.** A restore
after a save gives every register its value back, except that one whose
byte lies in the font gets what the font holds there. If none does, all
registers are as they were. A save after a restore changes nothing at all,
wherever the index points. -/
theorem save_restore (m : Machine) (x : Register) :
    let saved := m.execute (.save x)
    let back := saved.machine.execute (.restore x)
    let filled := m.execute (.restore x)
    let again := filled.machine.execute (.save x)
    (saved.fault? = none ∧ back.fault? = none ∧ filled.fault? = none ∧ again.fault? = none)
    ∧ back.machine
      = { m with memory := saved.machine.memory, registers := back.machine.registers }
    ∧ (∀ r, x < r → back.machine.registers.get r = m.registers.get r)
    ∧ (∀ r ≤ x, back.machine.registers.get r
        = if Memory.InFont (Memory.behind m.index r)
          then m.memory.bytes.get (Memory.behind m.index r) else m.registers.get r)
    ∧ ((∀ r ≤ x, ¬ Memory.InFont (Memory.behind m.index r)) →
        back.machine.registers = m.registers)
    ∧ again.machine = filled.machine ∧ again.machine.memory = m.memory := by
  intro saved back filled again
  have hget (r : Register) : back.machine.registers.get r
      = if r ≤ x ∧ Memory.InFont (Memory.behind m.index r)
        then m.memory.bytes.get (Memory.behind m.index r) else m.registers.get r :=
    m.get_restore_save x r
  have hagain : again.machine = filled.machine := m.save_restored x
  refine ⟨⟨rfl, rfl, rfl, rfl⟩, rfl, ?_, ?_, ?_, hagain, ?_⟩
  · intro r hr
    rw [hget, if_neg fun h => Nat.not_le.mpr hr h.1]
  · intro r hr
    rw [hget]
    simp only [hr, true_and]
  · intro hfont
    refine Registers.ext_get fun r => ?_
    rw [hget, if_neg fun h => hfont r h.1 h.2]
  · rw [hagain]
    rfl

/-- Four registers around the end of memory, and two of which the second
would lie in the font. -/
theorem save_restore_at_edges :
    let m : Machine :=
      { initial (.ofSeed 0) 0 with
        index := 0xFFFE
        registers := Registers.zero.setFrom 0 [1, 2, 3, 4] }
    let n : Machine := { m with index := 0x4F }
    let around := ((m.execute (.save 3)).machine.execute (.restore 3)).machine
    let across := ((n.execute (.save 1)).machine.execute (.restore 1)).machine
    ((∀ r ≤ (3 : Register), ¬ Memory.InFont (Memory.behind m.index r))
      ∧ (0 : Register) ≤ 1 ∧ (1 : Register) ≤ 1 ∧ (1 : Register) < 2)
    ∧ around.registers = m.registers
    ∧ across.registers.get 0 = 1
    ∧ across.registers.get 1 = 0xF0
    ∧ across.registers.get 2 = 3 := by
  intro m n around across
  have hfont : ∀ r ≤ (3 : Register), ¬ Memory.InFont (Memory.behind m.index r) := by decide
  have hle : (0 : Register) ≤ 1 ∧ (1 : Register) ≤ 1 ∧ (1 : Register) < 2 := by decide
  obtain ⟨-, -, -, -, haround, -⟩ := m.save_restore 3
  obtain ⟨-, -, hkept, hback, -⟩ := n.save_restore 1
  have h₀ := hback 0 hle.1
  have h₁ := hback 1 hle.2.1
  rw [if_neg (by decide)] at h₀
  rw [if_pos (by decide)] at h₁
  have hglyph : n.memory.bytes.get (Memory.behind n.index (1 : Register)) = 0xF0 :=
    Memory.holds_initial _ _ (by decide) rfl
  exact ⟨⟨hfont, hle⟩, haround hfont, h₀, h₁.trans hglyph, hkept 2 hle.2.2⟩

end Machine

end Chip8

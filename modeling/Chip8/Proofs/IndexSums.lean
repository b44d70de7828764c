import Mathlib.Algebra.GroupWithZero.Nat
import Chip8.Instruction.RoundTrip
import Chip8.Proofs.Checked

/-!
# Sums in the index

Adding registers to the index is addition modulo the size of memory. The
flag tells that a sum went past the end, and no addition takes it back. So
after any number of additions it tells whether the exact sum of all of them
went past the end (`Machine.index_sums`).

`Machine.Accumulates` holds the index and the flag against an exact number.
One addition adds the byte of its register to it, several in a row add up
(`Accumulates.trans`), and this is all that the induction over the registers
needs.
-/

namespace Chip8

namespace Machine

/-- The machine after each instruction was executed, with no cycle around it. -/
def executeAll (m : Machine) : List Instruction → Machine
  | [] => m
  | i :: l => (m.execute i).machine.executeAll l

/-- The second machine is the first with `n` added to its index. -/
structure Accumulates (n : Nat) (m m' : Machine) : Prop where
  index : m'.index.toNat = (m.index.toNat + n) % Memory.size
  /-- Raised by a sum past the end of memory, else as it was. -/
  flag : m'.registers.get .flag
    = if Memory.size ≤ m.index.toNat + n then 1 else m.registers.get .flag
  registers : ∀ r, r ≠ .flag → m'.registers.get r = m.registers.get r
  rest : m' = { m with index := m'.index, registers := m'.registers }

/-! ## One addition -/

theorem accumulates_addIndex (m : Machine) (x : Register) :
    Accumulates (m.registers.get x).toNat m (m.execute (.addIndex x)).machine := by
  constructor
  · have hlt : ∀ n, n % Memory.size < UInt16.size := fun n =>
      Nat.lt_trans (Nat.mod_lt _ (by decide)) (by decide)
    exact UInt16.toNat_ofNat_of_lt (hlt _)
  · simp only [execute, Outcome.machine_quiet]
    split
    · exact (Registers.get_setFlag_eq_one_iff _ _).mpr rfl
    · rfl
  · intro r hr
    simp only [execute, Outcome.machine_quiet]
    split
    · exact Registers.get_setFlag_of_ne _ _ hr
    · rfl
  · rfl

/-! ## Many additions -/

theorem Accumulates.refl {m : Machine} (h : m.index.toNat < Memory.size) : Accumulates 0 m m := by
  constructor
  · exact (Nat.mod_eq_of_lt h).symm
  · exact (if_neg (Nat.not_le.mpr h)).symm
  · exact fun _ _ => rfl
  · rfl

theorem Accumulates.index_lt {n : Nat} {m m' : Machine} (h : Accumulates n m m') :
    m'.index.toNat < Memory.size := by
  rw [h.index]
  exact Nat.mod_lt _ (by decide)

/-- The sum past the end may be the first, the second or that of what the
first has left over. -/
theorem Accumulates.trans {n₁ n₂ : Nat} {m₁ m₂ m₃ : Machine} (h₁ : Accumulates n₁ m₁ m₂)
    (h₂ : Accumulates n₂ m₂ m₃) : Accumulates (n₁ + n₂) m₁ m₃ := by
  constructor
  · rw [h₂.index, h₁.index, Nat.mod_add_mod, Nat.add_assoc]
  · have hend : Memory.size ≤ m₁.index.toNat + (n₁ + n₂) ↔
        Memory.size ≤ m₂.index.toNat + n₂ ∨ Memory.size ≤ m₁.index.toNat + n₁ := by
      rw [h₁.index]
      simp only [Memory.size]
      omega
    rw [h₂.flag, h₁.flag]
    by_cases h : Memory.size ≤ m₂.index.toNat + n₂
    · rw [if_pos h, if_pos (hend.mpr (Or.inl h))]
    · simp only [hend, h, false_or, if_false]
  · intro r hr
    rw [h₂.registers r hr, h₁.registers r hr]
  · rw [h₂.rest, h₁.rest]

theorem accumulates_executeAll {m : Machine} {l : List Register} (h : m.index.toNat < Memory.size)
    (hl : ∀ x ∈ l, x ≠ .flag) :
    Accumulates (l.map fun x => (m.registers.get x).toNat).sum m
      (m.executeAll (l.map .addIndex)) := by
  induction l generalizing m with
  | nil => exact Accumulates.refl h
  | cons x l ih =>
      have hfirst := m.accumulates_addIndex x
      have hrest := ih hfirst.index_lt fun y hy => hl y (List.mem_cons_of_mem x hy)
      -- the first addition has left the registers of the others alone
      have hsame : ∀ y ∈ l, ((m.execute (.addIndex x)).machine.registers.get y).toNat
          = (m.registers.get y).toNat := fun y hy =>
        congrArg _ (hfirst.registers y (hl y (List.mem_cons_of_mem x hy)))
      rw [List.map_congr_left hsame] at hrest
      exact hfirst.trans hrest

/-- **Additions to the index add up, and the flag remembers.** Start with
an index inside memory and add any registers to it but the flag register.
The index is the exact sum modulo the size of memory. The flag is one if
the exact sum went past the end, however often, and what it was if not; no
other register and nothing else changes. At every point the next addition
succeeds and its sum fits into sixteen bits. The flag register itself can be
added too: what counts is the value that it had. -/
theorem index_sums {m : Machine} (h : m.index.toNat ≤ 0xFFF) :
    (∀ l : List Register, (∀ x ∈ l, x ≠ .flag) →
      let exact := m.index.toNat + (l.map fun x => (m.registers.get x).toNat).sum
      let after := m.executeAll (l.map .addIndex)
      after.index.toNat = exact % 4096
      ∧ after.registers.get .flag = (if 4096 ≤ exact then 1 else m.registers.get .flag)
      ∧ (∀ r, r ≠ .flag → after.registers.get r = m.registers.get r)
      ∧ after = { m with index := after.index, registers := after.registers }
      ∧ ∀ x, after.index.toNat + (after.registers.get x).toNat < 65536
        ∧ (after.execute (.addIndex x)).fault? = none
        ∧ Checked.execute after (.addIndex x) = some (after.execute (.addIndex x)))
    ∧ (let exact := m.index.toNat + (m.registers.get .flag).toNat
      let after := (m.execute (.addIndex .flag)).machine
      after.index.toNat = exact % 4096
      ∧ after.registers.get .flag = (if 0xFFF < exact then 1 else m.registers.get .flag)
      ∧ (∀ r, r ≠ .flag → after.registers.get r = m.registers.get r)
      ∧ after = { m with index := after.index, registers := after.registers })
    ∧ ∀ x, Instruction.decode (.ofByte 0xF x 0x1E) = .ok (.addIndex x) := by
  have hlt : m.index.toNat < Memory.size := Nat.lt_succ_of_le h
  refine ⟨?_, ?_, ?_⟩
  · intro l hl exact after
    have hsum : Accumulates _ m after := accumulates_executeAll hlt hl
    refine ⟨hsum.index, hsum.flag, hsum.registers, hsum.rest, fun x => ?_⟩
    have hafter : after.index.toNat < 4096 := hsum.index_lt
    have hx := (after.registers.get x).toNat_lt
    exact ⟨by omega, rfl, Checked.execute_addIndex_eq x (by omega)⟩
  · have hsum := m.accumulates_addIndex .flag
    exact ⟨hsum.index, hsum.flag, hsum.registers, hsum.rest⟩
  · intro x
    exact Instruction.decode_eq_ok_iff.mpr
      (Instruction.decode?_encode (i := .addIndex x) trivial)

/-- Two registers from the last byte on, one of them twice, and the flag
register from the same place. -/
theorem index_sums_from_last_byte :
    let m : Machine :=
      { initial (.ofSeed 0) 0 with
        index := 0xFFF
        registers := ((Registers.zero.set 1 0xFF).set 2 0x02).set .flag 7 }
    let after := m.executeAll ([1, 2, 1].map .addIndex)
    (m.index.toNat ≤ 0xFFF ∧ ∀ x ∈ [(1 : Register), 2, 1], x ≠ .flag)
    ∧ after.index.toNat = 0x1FF
    ∧ after.registers.get .flag = 1
    ∧ after.registers.get 1 = 0xFF
    ∧ (m.execute (.addIndex .flag)).machine.index.toNat = 6
    ∧ (m.execute (.addIndex .flag)).machine.registers.get .flag = 1 := by
  intro m after
  have h : m.index.toNat ≤ 0xFFF := by decide
  have hl : ∀ x ∈ [(1 : Register), 2, 1], x ≠ .flag := by decide
  obtain ⟨hall, ⟨hindex, hflag, -⟩, -⟩ := index_sums h
  obtain ⟨hindex', hflag', hkept, -⟩ := hall [1, 2, 1] hl
  exact ⟨⟨h, hl⟩, hindex'.trans (by decide), hflag'.trans (by decide), hkept 1 (by decide),
    hindex.trans (by decide), hflag.trans (by decide)⟩

end Machine

end Chip8

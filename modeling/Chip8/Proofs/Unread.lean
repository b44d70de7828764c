import Mathlib.Data.Set.Basic
import Chip8.Proofs.StraightLine

/-!
# Memory that is never read

A cycle reads the word at the program counter and, if its instruction draws
or restores, some bytes from the index on (`Machine.Reads`). Nothing else
of memory has any influence: two machines that differ in a set of bytes
which no cycle reads do the same for ever (`SameOutside.run`). Writes keep
this up, since both machines write the same bytes to the same places.
-/

namespace Chip8

namespace Machine

/-- The next cycle reads the byte: it belongs to the word that is fetched,
or to what the instruction loads. -/
def Reads (m : Machine) (s : Fin 4096) : Prop :=
  (m.pc.toNat ≤ 0xFFE ∧ (s.val = m.pc.toNat ∨ s.val = m.pc.toNat + 1))
  ∨ ∃ i, m.peek = .ok i ∧ Memory.InSpan m.index i.loads s

/-- Two machines that differ at most in the bytes of the set. -/
structure SameOutside (D : Set (Fin 4096)) (m m' : Machine) : Prop where
  rest : m' = { m with memory := m'.memory }
  bytes : ∀ s ∉ D, m.memory.bytes.get s = m'.memory.bytes.get s

/-! ## One instruction -/

/-- An instruction sees of memory the bytes that it loads, and writes
whatever the memory is. -/
theorem execute_withMemory (m : Machine) (memory : Memory) {i : Instruction}
    (h : ∀ s, Memory.InSpan m.index i.loads s → m.memory.bytes.get s = memory.bytes.get s) :
    ({ m with memory := memory }.execute i).machine
      = { (m.execute i).machine with
          memory := memory.writeList m.index (m.stored i) } := by
  cases i with
  -- these two read memory, and the bytes they read are the same in both
  | draw x y rows =>
      have hsprite : m.memory.sprite m.index rows = memory.sprite m.index rows :=
        Memory.readList_congr fun s hs => h s (hs.mono (Nat.min_le_left ..))
      simp only [execute, ← hsprite]
      rfl
  | restore x =>
      have hread := Memory.readList_congr h
      simp only [execute, Instruction.loads] at hread ⊢
      rw [← hread]
      rfl
  | skip condition =>
      have hc : condition.holds { m with memory := memory } = condition.holds m := by
        cases condition <;> rfl
      simp only [execute, hc]
      split <;> rfl
  -- what these split on is not in memory
  | ret | call _ | awaitKey _ =>
      simp only [execute]
      split <;> rfl
  | _ => rfl

namespace SameOutside

variable {D : Set (Fin 4096)} {m m' : Machine} (h : SameOutside D m m')
include h

theorem execute {i : Instruction} (hd : ∀ s ∈ D, ¬ Memory.InSpan m.index i.loads s) :
    (m.execute i).fault? = (m'.execute i).fault?
      ∧ SameOutside D (m.execute i).machine (m'.execute i).machine := by
  have hread : ∀ s, Memory.InSpan m.index i.loads s →
      m.memory.bytes.get s = m'.memory.bytes.get s := fun s hs =>
    h.bytes s fun hD => hd s hD hs
  have he : (m'.execute i).machine
      = { (m.execute i).machine with
          memory := m'.memory.writeList m.index (m.stored i) } := by
    rw [h.rest]
    exact m.execute_withMemory m'.memory hread
  refine ⟨?_, ?_, ?_⟩
  · rw [fault?_execute, fault?_execute, h.rest]
  · rw [he]
  · intro s hs
    rw [he, memory_execute]
    exact Memory.get_writeList_congr _ _ _ (h.bytes s hs)

/-! ## One action -/

theorem word (hd : ∀ s ∈ D, ¬ m.Reads s) (hpc : m.pc.toNat ≤ 0xFFE) : m.word = m'.word := by
  have hread : ∀ a : Address, a.toNat = m.pc.toNat ∨ a.toNat = m.pc.toNat + 1 →
      m.memory.read a = m'.memory.read a := by
    intro a ha
    refine h.bytes (Memory.slot a) fun hD => hd _ hD (Or.inl ⟨hpc, ?_⟩)
    have hs : (Memory.slot a).val = a.toNat := Nat.mod_eq_of_lt (by omega)
    rwa [hs]
  have hnext : (m.pc + 1).toNat = m.pc.toNat + 1 := by
    rw [UInt16.toNat_add, UInt16.toNat_one]
    omega
  have hpc' : m'.pc = m.pc := by rw [h.rest]
  rw [Machine.word, Machine.word, hpc', hread _ (Or.inl rfl), hread _ (Or.inr hnext)]

theorem cycle (t : Time) (hd : ∀ s ∈ D, ¬ m.Reads s) :
    (m.cycle t).fault? = (m'.cycle t).fault?
      ∧ SameOutside D (m.cycle t).machine (m'.cycle t).machine := by
  have hpc : m.pc = m'.pc := by rw [h.rest]
  have htick : SameOutside D (m.tick t) (m'.tick t) := ⟨by rw [h.rest]; rfl, h.bytes⟩
  have hstep : SameOutside D (m.tick t).stepOver (m'.tick t).stepOver :=
    ⟨by rw [h.rest]; rfl, h.bytes⟩
  refine cycle_lockstep hpc (h.word hd) htick hstep fun i hi => hstep.execute ?_
  intro s hs hspan
  exact hd s hs (Or.inr ⟨i, hi, hspan⟩)

theorem setKeys (codes : List UInt8) :
    SameOutside D (m.setKeys codes).machine (m'.setKeys codes).machine :=
  ⟨by rw [h.rest]; rfl, h.bytes⟩

/-! ## Whole runs -/

theorem run {l : List Action} (hd : ∀ n ∈ m.cycled l, ∀ s ∈ D, ¬ n.Reads s) :
    m.faults l = m'.faults l ∧ SameOutside D (m.run l) (m'.run l) := by
  refine run_lockstep (Q := Eq) (P := fun n => ∀ s ∈ D, ¬ n.Reads s) ?_
    (List.forall₂_refl l) h hd
  rintro m m' a _ h rfl hp
  cases a with
  | cycle t => exact h.cycle t (hp ⟨t, rfl⟩)
  | setKeys codes => exact ⟨rfl, h.setKeys codes⟩

end SameOutside

/-- **Memory that is never read has no influence.** Do the same with two
machines that differ in the bytes of a set only. For as long as no cycle of
the first reads a byte of the set, be it in an instruction word, a sprite
or what a restore loads, both return the same and still differ in the bytes
of the set only. -/
theorem sameOutside_run_of_unread {D : Set (Fin 4096)} {m m' : Machine} {l : List Action} {k : Nat}
    (h : SameOutside D m m') (hd : ∀ n ∈ m.cycled (l.take k), ∀ s ∈ D, ¬ n.Reads s) :
    m.faults (l.take k) = m'.faults (l.take k)
      ∧ SameOutside D (m.run (l.take k)) (m'.run (l.take k)) :=
  h.run hd

/-- A straight-line program reads a byte that is not its own only by an
instruction that loads it. -/
theorem Arrived.not_reads {l : Schedule} {random : Generator} {created : Time} {k : Nat}
    {t : Time} {i : Instruction} {s : Fin 4096} (h : Arrived l random created k)
    (hlen : l.length ≤ 1792) (hget : l[k]? = some (t, i)) (hwf : i.WellFormed)
    (hs : s.val < 0x200 ∨ 0x200 + 2 * l.length ≤ s.val)
    (hload : ¬ Memory.InSpan (after l random created k).index i.loads s) :
    ¬ (after l random created k).Reads s := by
  obtain ⟨hk, -⟩ := List.getElem?_eq_some_iff.mp hget
  rintro (⟨-, hword⟩ | ⟨i', hi', hread⟩)
  · have hpc := h.toNat_pc (by omega)
    omega
  · have hi := h.peek (by omega) hget hwf
    obtain rfl : i = i' := Except.ok.inj (hi.symm.trans hi')
    exact hload hread

/-- Writes over the byte at `0x300` and reads the one before it. -/
private def besideSchedule : Schedule :=
  [(0, .setIndex 0x2FF), (5, .save .flag), (20000000, .restore .first),
    (7, .draw .first .flag 1)]

theorem sameOutside_run_of_besideByte :
    let l := besideSchedule
    let m := loaded l.image (.ofSeed 3) 0
    let m' := { m with memory := m.memory.write 0x300 0xAA }
    let D : Set (Fin 4096) := {s | s.val = 0x300}
    (SameOutside D m m' ∧ ∀ n ∈ m.cycled (l.cycles.take 4), ∀ s ∈ D, ¬ n.Reads s)
    ∧ m.faults l.cycles = m'.faults l.cycles
    ∧ SameOutside D (m.run l.cycles) (m'.run l.cycles) := by
  intro l m m' D
  have hl : ∀ s ∈ l, s.2.WellFormed ∧ s.2.Straight := by decide
  have harrived₁ : Arrived l (.ofSeed 3) 0 1 :=
    arrived_of_stores_eq_zero (by decide) hl (by decide) (by decide)
  have hindex : (after l (.ofSeed 3) 0 1).index = 0x2FF := by
    rw [harrived₁.eq_perform]
    rfl
  have harrived : ∀ k ≤ 4, Arrived l (.ofSeed 3) 0 k := by
    refine fun k hk => arrived_of_spares (by decide) hl hk ?_
    rintro (_ | _ | _ | _ | j) t i - hget
    case succ.zero =>
      cases hget
      refine Spares.of_apart (Or.inr ?_)
      rw [hindex]
      decide
    case succ.succ.succ.succ => cases hget
    all_goals
      cases hget
      exact Spares.of_stores_eq_zero rfl _ _
  have hbefore : ∀ {a : Address}, a = 0x2FF → ∀ s ∈ D, ¬ Memory.InSpan a 1 s := by
    rintro a rfl s hs ⟨j, hj, hspan⟩
    have hs' : s.val = 0x300 := hs
    have ha : (0x2FF : Address).toNat = 0x2FF := rfl
    omega
  have hspan : ∀ k t i, l[k]? = some (t, i) → ∀ s ∈ D,
      ¬ Memory.InSpan (after l (.ofSeed 3) 0 k).index i.loads s := by
    rintro (_ | _ | _ | _ | k) t i hget s hs
    case succ.succ.zero =>
      cases hget
      refine hbefore ?_ s hs
      rw [(harrived 2 (by decide)).eq_perform]
      rfl
    case succ.succ.succ.zero =>
      cases hget
      refine hbefore ?_ s hs
      rw [(harrived 3 (by decide)).eq_perform]
      rfl
    case succ.succ.succ.succ => cases hget
    all_goals
      cases hget
      exact Memory.not_inSpan_zero _ s
  have hd : ∀ n ∈ m.cycled (l.cycles.take 4), ∀ s ∈ D, ¬ n.Reads s := by
    rw [show l.cycles.take 4 = l.cycles from rfl]
    intro n hn s hs
    obtain ⟨k, t, i, hget, rfl⟩ := exists_after_of_mem_cycled hn
    have hk : k < 4 := (List.getElem?_eq_some_iff.mp hget).1
    have hbehind : 0x200 + 2 * l.length ≤ s.val := by
      rw [show s.val = 0x300 from hs]
      decide
    exact (harrived k (Nat.le_of_lt hk)).not_reads (by decide) hget
      (hl _ (List.mem_of_getElem? hget)).1 (Or.inr hbehind) (hspan k t i hget s hs)
  have h : SameOutside D m m' := by
    refine ⟨rfl, fun s hs => ?_⟩
    show _ = (m.memory.write 0x300 0xAA).bytes.get s
    rw [Memory.get_write, if_neg]
    rintro ⟨rfl, -⟩
    exact hs rfl
  have hrun := sameOutside_run_of_unread (k := 4) h hd
  rw [show l.cycles.take 4 = l.cycles from rfl] at hrun
  exact ⟨⟨h, hd⟩, hrun⟩

end Machine

end Chip8

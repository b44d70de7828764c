import Chip8.Proofs.Frame

/-!
# What an instruction reads and writes in memory

An instruction reaches memory through the index only: it loads the bytes
from the index on, or it stores some there (`memory_execute`). Spans of
bytes are counted around the end of memory. A span that is written leaves
the bytes outside it alone and the font wherever it lies; a span that is
read depends on its own bytes alone.
-/

namespace Chip8

namespace Memory

/-- The byte is one of the `n` from the address on. -/
def InSpan (a : Address) (n : Nat) (s : Fin 4096) : Prop :=
  ∃ k < n, s.val = (a.toNat + k) % 4096

theorem not_inSpan_zero (a : Address) (s : Fin 4096) : ¬ InSpan a 0 s := by
  rintro ⟨k, hk, -⟩
  exact Nat.not_lt_zero k hk

theorem inSpan_succ {a : Address} {n : Nat} {s : Fin 4096} :
    InSpan a (n + 1) s ↔ s = slot a ∨ InSpan (a + 1) n s := by
  have hnext : (a + 1).toNat = (a.toNat + 1) % 65536 := by
    rw [UInt16.toNat_add, UInt16.toNat_one]
  constructor
  · rintro ⟨k, hk, hs⟩
    cases k with
    | zero => exact Or.inl (Fin.ext hs)
    | succ k => exact Or.inr ⟨k, Nat.lt_of_succ_lt_succ hk, by omega⟩
  · rintro (rfl | ⟨k, hk, hs⟩)
    · exact ⟨0, Nat.zero_lt_succ n, rfl⟩
    · exact ⟨k + 1, Nat.succ_lt_succ hk, by omega⟩

theorem InSpan.mono {a : Address} {n n' : Nat} {s : Fin 4096} (h : InSpan a n s)
    (hn : n ≤ n') : InSpan a n' s := by
  obtain ⟨k, hk, hs⟩ := h
  exact ⟨k, Nat.lt_of_lt_of_le hk hn, hs⟩

/-! ## Writing a span -/

section Write

variable (m : Memory) (a : Address) (l : List UInt8) {s : Fin 4096}

theorem get_writeList_of_not_inSpan (h : ¬ InSpan a l.length s) :
    (m.writeList a l).bytes.get s = m.bytes.get s := by
  induction l generalizing m a with
  | nil => rfl
  | cons b l ih =>
      rw [List.length_cons, inSpan_succ, not_or] at h
      rw [writeList, ih _ _ h.2, get_write, if_neg fun hs => h.1 hs.1]

theorem get_writeList_of_inFont (h : InFont s) :
    (m.writeList a l).bytes.get s = m.bytes.get s := by
  induction l generalizing m a with
  | nil => rfl
  | cons b l ih =>
      have hne : ¬ (s = slot a ∧ ¬ InFont (slot a)) := by
        rintro ⟨rfl, hs⟩
        exact hs h
      rw [writeList, ih, get_write, if_neg hne]

theorem get_writeList_congr {m' : Memory} (h : m.bytes.get s = m'.bytes.get s) :
    (m.writeList a l).bytes.get s = (m'.writeList a l).bytes.get s := by
  induction l generalizing m m' a with
  | nil => exact h
  | cons b l ih =>
      refine ih _ _ ?_
      rw [get_write, get_write, h]

end Write

/-! ## Reading a span -/

theorem getElem?_readList (m : Memory) (a : Address) {n k : Nat} (h : k < n) :
    (m.readList a n)[k]? = some m.bytes[(a.toNat + k) % 4096] := by
  induction n generalizing a k with
  | zero => exact absurd h (Nat.not_lt_zero k)
  | succ n ih =>
      cases k with
      | zero => rfl
      | succ k =>
          have hnext : ((a + 1).toNat + k) % 4096 = (a.toNat + (k + 1)) % 4096 := by
            rw [UInt16.toNat_add, UInt16.toNat_one]
            omega
          rw [readList, List.getElem?_cons_succ, ih (a + 1) (Nat.lt_of_succ_lt_succ h)]
          simp only [hnext]

theorem readList_congr {m m' : Memory} {a : Address} {n : Nat}
    (h : ∀ s, InSpan a n s → m.bytes.get s = m'.bytes.get s) : m.readList a n = m'.readList a n := by
  induction n generalizing a with
  | zero => rfl
  | succ n ih =>
      have hhead : m.read a = m'.read a := h _ (inSpan_succ.mpr (Or.inl rfl))
      have htail := ih fun s hs => h s (inSpan_succ.mpr (Or.inr hs))
      rw [readList, readList, hhead, htail]

end Memory

/-! ## Instructions -/

/-- How many bytes from the index on an instruction reads. -/
def Instruction.loads : Instruction → Nat
  | draw _ _ rows => rows.toNat
  | restore x => x.val + 1
  | _ => 0

/-- How many bytes from the index on an instruction writes. -/
def Instruction.stores : Instruction → Nat
  | decimal _ => 3
  | save x => x.val + 1
  | _ => 0

namespace Machine

/-- The bytes that an instruction writes from the index on. -/
def stored (m : Machine) : Instruction → List UInt8
  | .decimal x => decimalDigits (m.registers.get x)
  | .save x => m.registers.takeTo x
  | _ => []

@[simp] theorem length_stored (m : Machine) (i : Instruction) :
    (m.stored i).length = i.stores := by
  cases i with
  | save x => exact m.registers.length_takeTo x
  | _ => rfl

theorem memory_execute (m : Machine) (i : Instruction) :
    (m.execute i).machine.memory = m.memory.writeList m.index (m.stored i) := by
  cases i with
  | decimal _ | save _ => rfl
  | _ => exact m.execute_agreeOn (p := .memory) id

theorem get_memory_execute {m : Machine} {i : Instruction} {s : Fin 4096}
    (h : ¬ Memory.InSpan m.index i.stores s) :
    (m.execute i).machine.memory.bytes.get s = m.memory.bytes.get s := by
  rw [← m.length_stored i] at h
  rw [memory_execute]
  exact Memory.get_writeList_of_not_inSpan _ _ _ h

end Machine

end Chip8

import Chip8.Instruction.RoundTrip
import Chip8.Machine.Cycle

/-!
# One cycle, stage by stage

A cycle ends at the fetch, at the decoding or with the execution of an
instruction (`Machine.cycle_cases`), and which of the three it is depends
on nothing but the program counter and the word that it points to. All
that is said of cycles elsewhere starts from these three cases.
-/

namespace Chip8

/-! ## Words -/

/-- The word is one of the forms of the instruction set. -/
def Word.IsInstruction (w : Word) : Prop := ∃ i : Instruction, i.WellFormed ∧ i.encode = w

namespace Instruction

theorem decode?_eq_none_iff {w : Word} : decode? w = none ↔ ¬ w.IsInstruction := by
  constructor
  · rintro h ⟨i, hi⟩
    rw [decode?_eq_some_iff.mpr hi] at h
    cases h
  · intro h
    cases hw : decode? w with
    | none => rfl
    | some i => exact absurd ⟨i, decode?_eq_some_iff.mp hw⟩ h

/-- The first digit alone makes a word a call. -/
theorem decode?_eq_call_iff {w : Word} {target : Address} :
    decode? w = some (.call target) ↔ w.opcode = 2 ∧ target = w.nnn := by
  constructor
  · intro h
    obtain ⟨hwf, rfl⟩ := decode?_eq_some_iff.mp h
    have hlt : target.toNat < 4096 := hwf
    exact ⟨Word.opcode_ofAddress (by decide) target,
      (Word.nnn_ofAddress (by decide) hlt).symm⟩
  · rintro ⟨h, rfl⟩
    simp [decode?, h]

end Instruction

/-! ## Fetching -/

namespace Memory

theorem fetch_of_le (m : Memory) {pc : Address} (h : pc.toNat ≤ 0xFFE) :
    m.fetch pc = .ok (.ofBytes (m.read pc) (m.read (pc + 1))) := by
  have h₁ : pc.toNat % 4096 = pc.toNat := Nat.mod_eq_of_lt (by omega)
  have h₂ : (pc + 1).toNat % 4096 = pc.toNat + 1 := by
    rw [UInt16.toNat_add, UInt16.toNat_one]
    omega
  have hle : pc.toNat + 2 ≤ 4096 := by omega
  simp only [fetch, hle, ↓reduceDIte, read_eq, slot, h₁, h₂]

theorem fetch_of_lt (m : Memory) {pc : Address} (h : 0xFFE < pc.toNat) :
    m.fetch pc = .error (.outOfBounds pc) := by
  have hlt : ¬ pc.toNat + 2 ≤ 4096 := by omega
  simp [fetch, hlt]

end Memory

namespace Machine

/-- The word at the program counter, high byte first. -/
def word (m : Machine) : Word := .ofBytes (m.memory.read m.pc) (m.memory.read (m.pc + 1))

theorem peek_of_lt {m : Machine} (h : 0xFFE < m.pc.toNat) :
    m.peek = .error (.outOfBounds m.pc) := by
  simp [peek, Memory.fetch_of_lt _ h]

theorem peek_of_le {m : Machine} (h : m.pc.toNat ≤ 0xFFE) :
    m.peek = Instruction.decode m.word := by
  simp [peek, Memory.fetch_of_le _ h, word]

theorem peek_eq_ok_iff {m : Machine} {i : Instruction} :
    m.peek = .ok i ↔ m.pc.toNat ≤ 0xFFE ∧ Instruction.decode? m.word = some i := by
  rcases Nat.lt_or_ge 0xFFE m.pc.toNat with h | h
  · simp [peek_of_lt h, Nat.not_le.mpr h]
  · simp [peek_of_le h, h, Instruction.decode_eq_ok_iff]

theorem wellFormed_of_peek {m : Machine} {i : Instruction} (h : m.peek = .ok i) :
    i.WellFormed :=
  Instruction.wellFormed_of_decode? (peek_eq_ok_iff.mp h).2

theorem toNat_pc_stepOver {m : Machine} (h : m.pc.toNat + 2 < 65536) :
    m.stepOver.pc.toNat = m.pc.toNat + 2 := by
  show (m.pc + 2).toNat = _
  rw [UInt16.toNat_add]
  exact Nat.mod_eq_of_lt h

theorem toNat_pc_add_two {m : Machine} {i : Instruction} (h : m.peek = .ok i) :
    (m.pc + 2).toNat = m.pc.toNat + 2 := by
  have hle := (peek_eq_ok_iff.mp h).1
  exact toNat_pc_stepOver (by omega)

/-! ## The three ends of a cycle -/

theorem cycle_of_lt {m : Machine} (t : Time) (h : 0xFFE < m.pc.toNat) :
    m.cycle t = .failed (m.tick t) (.outOfBounds m.pc) := by
  simp [cycle, Memory.fetch_of_lt _ h]

theorem cycle_of_decode?_eq_none {m : Machine} (t : Time) (h : m.pc.toNat ≤ 0xFFE)
    (hw : Instruction.decode? m.word = none) :
    m.cycle t = (Outcome.failed (m.tick t).stepOver (.unknownInstruction m.word)).announce
      (.unknownInstruction m.pc m.word) := by
  have hd : Instruction.decode m.word = .error (.unknownInstruction m.word) :=
    Instruction.decode_eq_error_iff.mpr ⟨hw, rfl⟩
  simp only [cycle, Memory.fetch_of_le _ h]
  rw [runWord, ← word, hd]
  rfl

theorem cycle_of_peek {m : Machine} (t : Time) {i : Instruction} (h : m.peek = .ok i) :
    m.cycle t = ((m.tick t).stepOver.execute i).announce (.decoded m.pc m.word i) := by
  obtain ⟨hle, hw⟩ := peek_eq_ok_iff.mp h
  have hd : Instruction.decode m.word = .ok i := Instruction.decode_eq_ok_iff.mpr hw
  simp only [cycle, Memory.fetch_of_le _ hle]
  rw [runWord, ← word, hd]
  rfl

theorem machine_cycle_of_peek {m : Machine} (t : Time) {i : Instruction} (h : m.peek = .ok i) :
    (m.cycle t).machine = ((m.tick t).stepOver.execute i).machine := by
  rw [cycle_of_peek t h, Outcome.machine_announce]

theorem cycle_cases (m : Machine) (t : Time) :
    (0xFFE < m.pc.toNat ∧ m.cycle t = .failed (m.tick t) (.outOfBounds m.pc))
    ∨ (m.pc.toNat ≤ 0xFFE ∧ Instruction.decode? m.word = none
      ∧ m.cycle t = (Outcome.failed (m.tick t).stepOver (.unknownInstruction m.word)).announce
          (.unknownInstruction m.pc m.word))
    ∨ ∃ i, m.peek = .ok i
      ∧ m.cycle t = ((m.tick t).stepOver.execute i).announce (.decoded m.pc m.word i) := by
  rcases Nat.lt_or_ge 0xFFE m.pc.toNat with h | h
  · exact Or.inl ⟨h, cycle_of_lt t h⟩
  · cases hw : Instruction.decode? m.word with
    | none => exact Or.inr (Or.inl ⟨h, rfl, cycle_of_decode?_eq_none t h hw⟩)
    | some i =>
        have hp : m.peek = .ok i := peek_eq_ok_iff.mpr ⟨h, hw⟩
        exact Or.inr (Or.inr ⟨i, hp, cycle_of_peek t hp⟩)

/-! ## Faults -/

/-- The one instruction that can fail is a call, when the stack is full. -/
theorem fault?_execute (m : Machine) (i : Instruction) :
    (m.execute i).fault?
      = match i with
        | .call _ => if m.stack.depth = 16 then some (.stackOverflow m.pc) else none
        | _ => none := by
  cases i with
  | call target =>
      simp only [execute]
      cases hs : m.stack.push m.pc with
      | ok s =>
          have hne : m.stack.depth ≠ 16 := by
            intro hd
            rw [CallStack.push_eq_error_iff.mpr ⟨hd, rfl⟩] at hs
            cases hs
          simp [hne]
      | error f =>
          obtain ⟨hd, rfl⟩ := CallStack.push_eq_error_iff.mp hs
          simp [hd]
  | ret | awaitKey => simp only [execute]; split <;> rfl
  | _ => rfl

theorem fault?_cycle_of_peek {m : Machine} (t : Time) {i : Instruction} (h : m.peek = .ok i) :
    (m.cycle t).fault? = ((m.tick t).stepOver.execute i).fault? := by
  rw [cycle_of_peek t h, Outcome.fault?_announce]

/-! ## Reports -/

/-- What an instruction reports is an empty return or a refused write. -/
theorem of_mem_events_execute {m : Machine} {i : Instruction} {e : Event}
    (h : e ∈ (m.execute i).events) :
    (∃ pc, e = .emptyReturn pc) ∨ ∃ position byte, e = .fontWrite position byte := by
  cases i with
  | ret =>
      simp only [execute] at h
      split at h
      · cases h
      · exact Or.inl ⟨_, List.mem_singleton.mp h⟩
  | decimal x | save x =>
      obtain ⟨p, -, rfl⟩ := List.mem_map.mp h
      exact Or.inr ⟨_, _, rfl⟩
  | call _ | awaitKey _ =>
      simp only [execute] at h
      split at h <;> cases h
  | _ => cases h

end Machine

end Chip8

import Chip8.Proofs.Cycle

/-!
# How a cycle fails

The fault of a cycle is fixed by the program counter, the word that it
points to and the depth of the call stack (`fault?_cases`). A cycle that
fails has moved the clock and, unless there was nothing to fetch, the
program counter; all else is as it was (`machine_of_fault`). With nothing
to fetch the program counter never moves again (`run_of_lt`).
-/

namespace Chip8

namespace Machine

/-! ## Which fault -/

theorem fault?_cycle (m : Machine) (t : Time) :
    (m.cycle t).fault?
      = if 0xFFE < m.pc.toNat then some (.outOfBounds m.pc)
        else match Instruction.decode? m.word with
          | none => some (.unknownInstruction m.word)
          | some (.call _) =>
              if m.stack.depth = 16 then some (.stackOverflow (m.pc + 2)) else none
          | some _ => none := by
  rcases m.cycle_cases t with ⟨hlt, hc⟩ | ⟨hle, hw, hc⟩ | ⟨i, hi, hc⟩
  · rw [hc, if_pos hlt]
    rfl
  · rw [hc, if_neg (Nat.not_lt.mpr hle), hw]
    rfl
  · obtain ⟨hle, hw⟩ := peek_eq_ok_iff.mp hi
    rw [hc, if_neg (Nat.not_lt.mpr hle), hw, Outcome.fault?_announce, fault?_execute]
    cases i <;> rfl

/-- The next cycle is a call for which the stack has no room. -/
def Overflows (m : Machine) : Prop := m.word.opcode = 2 ∧ m.stack.depth = 16

theorem fault?_cases (m : Machine) (t : Time) :
    (0xFFE < m.pc.toNat ∧ (m.cycle t).fault? = some (.outOfBounds m.pc))
    ∨ (m.pc.toNat ≤ 0xFFE ∧ ¬ m.word.IsInstruction
      ∧ (m.cycle t).fault? = some (.unknownInstruction m.word))
    ∨ (m.pc.toNat ≤ 0xFFE ∧ m.word.IsInstruction ∧ m.Overflows
      ∧ (m.cycle t).fault? = some (.stackOverflow (m.pc + 2)))
    ∨ (m.pc.toNat ≤ 0xFFE ∧ m.word.IsInstruction ∧ ¬ m.Overflows
      ∧ (m.cycle t).fault? = none) := by
  rw [fault?_cycle]
  rcases Nat.lt_or_ge 0xFFE m.pc.toNat with hlt | hle
  · exact Or.inl ⟨hlt, if_pos hlt⟩
  rw [if_neg (Nat.not_lt.mpr hle)]
  cases hw : Instruction.decode? m.word with
  | none => exact Or.inr (Or.inl ⟨hle, Instruction.decode?_eq_none_iff.mp hw, rfl⟩)
  | some i =>
      have hinst : m.word.IsInstruction := ⟨i, Instruction.decode?_eq_some_iff.mp hw⟩
      by_cases hcall : ∃ target, i = .call target
      · obtain ⟨target, rfl⟩ := hcall
        have hop := (Instruction.decode?_eq_call_iff.mp hw).1
        by_cases hd : m.stack.depth = 16
        · exact Or.inr (Or.inr (Or.inl ⟨hle, hinst, ⟨hop, hd⟩, if_pos hd⟩))
        · exact Or.inr (Or.inr (Or.inr ⟨hle, hinst, fun h => hd h.2, if_neg hd⟩))
      · have hop : m.word.opcode ≠ 2 := by
          intro h
          have hc := Instruction.decode?_eq_call_iff.mpr ⟨h, rfl⟩
          exact hcall ⟨_, Option.some.inj (hw.symm.trans hc)⟩
        refine Or.inr (Or.inr (Or.inr ⟨hle, hinst, fun h => hop h.1, ?_⟩))
        cases i with
        | call target => exact absurd ⟨target, rfl⟩ hcall
        | _ => rfl

section Causes

variable {m : Machine} {t : Time}

theorem fault?_eq_outOfBounds_iff {a : Address} :
    (m.cycle t).fault? = some (.outOfBounds a) ↔ 0xFFE < m.pc.toNat ∧ a = m.pc := by
  rcases m.fault?_cases t with ⟨h, hf⟩ | ⟨h, _, hf⟩ | ⟨h, _, _, hf⟩ | ⟨h, _, _, hf⟩
  · simp [hf, h, eq_comm]
  all_goals simp [hf, Nat.not_lt.mpr h]

theorem fault?_eq_unknownInstruction_iff {w : Word} :
    (m.cycle t).fault? = some (.unknownInstruction w) ↔
      m.pc.toNat ≤ 0xFFE ∧ w = m.word ∧ ¬ w.IsInstruction := by
  rcases m.fault?_cases t with ⟨h, hf⟩ | ⟨h, hw, hf⟩ | ⟨_, hw, _, hf⟩ | ⟨_, hw, _, hf⟩
  · simp [hf, Nat.not_le.mpr h]
  · rw [hf, Option.some.injEq, Fault.unknownInstruction.injEq]
    exact ⟨fun e => ⟨h, e.symm, e ▸ hw⟩, fun e => e.2.1.symm⟩
  all_goals
    rw [hf]
    refine ⟨(by rintro ⟨⟩), ?_⟩
    rintro ⟨_, rfl, hn⟩
    exact absurd hw hn

theorem fault?_eq_stackOverflow_iff {a : Address} :
    (m.cycle t).fault? = some (.stackOverflow a) ↔
      m.pc.toNat ≤ 0xFFE ∧ a = m.pc + 2 ∧ m.Overflows := by
  rcases m.fault?_cases t with ⟨h, hf⟩ | ⟨_, hw, hf⟩ | ⟨h, _, ho, hf⟩ | ⟨_, _, ho, hf⟩
  · simp [hf, Nat.not_le.mpr h]
  · rw [hf]
    refine ⟨(by rintro ⟨⟩), ?_⟩
    rintro ⟨_, _, hop, _⟩
    have hc := Instruction.decode?_eq_call_iff.mpr ⟨hop, rfl⟩
    exact absurd ⟨_, Instruction.decode?_eq_some_iff.mp hc⟩ hw
  · simp [hf, h, ho, eq_comm]
  · simp [hf, ho]

theorem fault?_eq_none_iff :
    (m.cycle t).fault? = none ↔
      m.pc.toNat ≤ 0xFFE ∧ m.word.IsInstruction ∧ ¬ m.Overflows := by
  rcases m.fault?_cases t with ⟨h, hf⟩ | ⟨_, hw, hf⟩ | ⟨_, _, ho, hf⟩ | ⟨h, hw, ho, hf⟩
  · simp [hf, Nat.not_le.mpr h]
  · simp [hf, hw]
  · simp [hf, ho]
  · simp [hf, h, hw, ho]

/-- A fault of a cycle is none of a load. -/
theorem fault?_ne_load {f : Fault} (hf : (m.cycle t).fault? = some f) :
    f ≠ .emptyProgram ∧ ∀ size capacity, f ≠ .programTooLarge size capacity := by
  rcases m.fault?_cases t with ⟨_, h⟩ | ⟨_, _, h⟩ | ⟨_, _, _, h⟩ | ⟨_, _, _, h⟩
  all_goals
    rw [h] at hf
    cases hf
  all_goals exact ⟨by rintro ⟨⟩, by rintro _ _ ⟨⟩⟩

end Causes

/-! ## What a failure leaves behind -/

theorem machine_execute_of_fault {m : Machine} {i : Instruction} {f : Fault}
    (h : (m.execute i).fault? = some f) : (m.execute i).machine = m := by
  rw [fault?_execute] at h
  cases i with
  | call target =>
      by_cases hd : m.stack.depth = 16
      · have hfull : m.stack.push m.pc = .error (.stackOverflow m.pc) :=
          CallStack.push_eq_error_iff.mpr ⟨hd, rfl⟩
        simp only [execute, hfull, Outcome.machine_failed]
      · simp [hd] at h
  | _ => cases h

theorem machine_of_fault {m : Machine} {t : Time} {f : Fault} (h : (m.cycle t).fault? = some f) :
    (m.cycle t).machine
      = { m with
          timers := m.timers.update t
          pc := if 0xFFE < m.pc.toNat then m.pc else m.pc + 2 } := by
  rcases m.cycle_cases t with ⟨hlt, hc⟩ | ⟨hle, -, hc⟩ | ⟨i, hi, hc⟩
  · rw [hc, if_pos hlt]
    rfl
  · rw [hc, if_neg (Nat.not_lt.mpr hle)]
    rfl
  · rw [hc, Outcome.fault?_announce] at h
    rw [hc, if_neg (Nat.not_lt.mpr (peek_eq_ok_iff.mp hi).1), Outcome.machine_announce,
      machine_execute_of_fault h]
    rfl

/-! ## Past the end of memory -/

/-- With nothing to fetch, only the clock and the keys still move. -/
theorem run_of_lt {m : Machine} (h : 0xFFE < m.pc.toNat) (l : List Action) :
    m.run l = { m with timers := (m.run l).timers, keypad := (m.run l).keypad } := by
  induction l generalizing m with
  | nil => rfl
  | cons a l ih =>
      cases a with
      | cycle t =>
          have ha : (m.act (.cycle t)).machine = m.tick t := by
            rw [act, cycle_of_lt t h, Outcome.machine_failed]
          rw [run_cons, ha]
          exact ih h
      | setKeys codes => exact ih h

/-- **How a cycle fails.** Each fault has exactly one cause, and a cycle
without a cause succeeds. A failed cycle leaves everything but the clock
and the program counter as it was, and a machine whose program counter has
left the memory goes on to fail alike, whatever is done with it. -/
theorem cycle_faults (m : Machine) (t : Time) :
    (∀ a, (m.cycle t).fault? = some (.outOfBounds a) ↔ 0xFFE < m.pc.toNat ∧ a = m.pc)
    ∧ (∀ w, (m.cycle t).fault? = some (.unknownInstruction w) ↔
        m.pc.toNat ≤ 0xFFE ∧ w = m.word ∧ ¬ w.IsInstruction)
    ∧ (∀ a, (m.cycle t).fault? = some (.stackOverflow a) ↔
        m.pc.toNat ≤ 0xFFE ∧ a = m.pc + 2 ∧ m.word.opcode = 2 ∧ m.stack.depth = 16)
    ∧ ((m.cycle t).fault? = none ↔
        m.pc.toNat ≤ 0xFFE ∧ m.word.IsInstruction
          ∧ ¬ (m.word.opcode = 2 ∧ m.stack.depth = 16))
    ∧ (∀ f, (m.cycle t).fault? = some f →
        (f ≠ .emptyProgram ∧ ∀ size capacity, f ≠ .programTooLarge size capacity)
        ∧ (m.cycle t).machine
          = { m with
              timers := m.timers.update t
              pc := match f with
                | .outOfBounds _ => m.pc
                | _ => m.pc + 2 })
    ∧ (∀ a, (m.cycle t).fault? = some (.outOfBounds a) → ∀ l t',
        let later := (m.cycle t).machine.run l
        later = { m with timers := later.timers, keypad := later.keypad }
        ∧ later.cycle t' = .failed (later.tick t') (.outOfBounds a)) := by
  refine ⟨fun _ => fault?_eq_outOfBounds_iff, fun _ => fault?_eq_unknownInstruction_iff,
    fun _ => fault?_eq_stackOverflow_iff, fault?_eq_none_iff, ?_, ?_⟩
  · intro f hf
    refine ⟨fault?_ne_load hf, ?_⟩
    rw [machine_of_fault hf]
    rcases m.fault?_cases t with ⟨h, hc⟩ | ⟨h, _, hc⟩ | ⟨h, _, _, hc⟩ | ⟨_, _, _, hc⟩
    all_goals
      rw [hc] at hf
      cases hf
    · rw [if_pos h]
    · rw [if_neg (Nat.not_lt.mpr h)]
    · rw [if_neg (Nat.not_lt.mpr h)]
  · intro a ha l t'
    obtain ⟨hlt, rfl⟩ := fault?_eq_outOfBounds_iff.mp ha
    rw [cycle_of_lt t hlt, Outcome.machine_failed]
    have hl := run_of_lt (m := m.tick t) hlt l
    have hpc : ((m.tick t).run l).pc = m.pc := by rw [hl]; rfl
    refine ⟨hl, ?_⟩
    rw [cycle_of_lt t' (hpc ▸ hlt), hpc]

end Machine

end Chip8

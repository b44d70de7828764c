import Chip8.Proofs.Checked
import Chip8.Proofs.Faults
import Chip8.Proofs.ProgramCounter

/-!
# The bounds of a running machine

The program counter is bounded because every jump is, and a return is
bounded because every call was; the index is bounded because everything
that writes it keeps twelve bits. `Machine.Bounded` holds these bounds
together: each needs the others, and every action preserves them
(`Bounded.act`), whether it succeeds or not. On a bounded machine no
operation is out of range.
-/

namespace Chip8

namespace Machine

/-- Where the program counter, the index and the return addresses lie. -/
structure Bounded (m : Machine) : Prop where
  pc : m.pc.toNat ≤ 0x10FE
  index : m.index.toNat ≤ 0xFFF
  returns : ∀ a ∈ m.stack.toList, 2 ≤ a.toNat ∧ a.toNat ≤ 0x1000
  cleared : m.stack.Cleared

/-! ## One instruction -/

theorem index_execute_le {m : Machine} {i : Instruction} (hi : i.WellFormed)
    (h : m.index.toNat ≤ 0xFFF) : (m.execute i).machine.index.toNat ≤ 0xFFF := by
  cases i with
  | setIndex address =>
      have ha : address.toNat < 4096 := hi
      exact Nat.le_of_lt_succ ha
  | addIndex x =>
      show (UInt16.ofNat _).toNat ≤ _
      rw [UInt16.toNat_ofNat']
      have hlt : (m.index.toNat + (m.registers.get x).toNat) % Memory.size < 4096 :=
        Nat.mod_lt _ (by decide)
      omega
  | glyph x =>
      show (UInt16.ofNat _).toNat ≤ _
      rw [UInt16.toNat_ofNat', Memory.fontStart, Font.glyphHeight]
      exact Nat.le_trans (Nat.mod_le _ _) (by omega)
  | _ =>
      rw [show _ = m.index from m.execute_agreeOn (p := .index) id]
      exact h

theorem nextPc_le {m : Machine} {returns : List Address} {i : Instruction} (hi : i.WellFormed)
    (hpc : m.pc.toNat ≤ 0xFFE) (hr : ∀ a ∈ returns, a.toNat ≤ 0x1000) :
    m.nextPc returns i ≤ 0x10FE := by
  have hnext : m.pc.toNat + 2 ≤ 0x10FE := by omega
  cases i with
  | jump target | call target =>
      have ht : target.toNat < 4096 := hi
      exact Nat.le_trans (Nat.le_of_lt ht) (by decide)
  | ret =>
      show (returns.getLast?.map UInt16.toNat).getD (m.pc.toNat + 2) ≤ _
      cases ha : returns.getLast? with
      | none => exact hnext
      | some a => exact Nat.le_trans (hr a (List.mem_of_getLast? ha)) (by decide)
  | skip c =>
      show (if c.Met m then m.pc.toNat + 4 else m.pc.toNat + 2) ≤ _
      split <;> omega
  | jumpOffset base =>
      have hb : base.toNat < 4096 := hi
      have hv := (m.registers.get .first).toNat_lt
      show base.toNat + (m.registers.get .first).toNat ≤ _
      omega
  | awaitKey x =>
      show (if m.keypad.toList = [] then m.pc.toNat else m.pc.toNat + 2) ≤ _
      split <;> omega
  | _ => exact hnext

theorem pc_execute_le {m : Machine} {i : Instruction} (hi : i.WellFormed)
    (hpc : m.pc.toNat ≤ 0xFFE) (hs : ∀ a ∈ m.stack.toList, a.toNat ≤ 0x1000) :
    (m.stepOver.execute i).machine.pc.toNat ≤ 0x10FE := by
  cases hf : (m.stepOver.execute i).fault? with
  | none =>
      rw [toNat_pc_execute hpc hi hf]
      exact nextPc_le hi hpc hs
  | some f =>
      rw [machine_execute_of_fault hf, toNat_pc_stepOver (by omega)]
      omega

/-! ## One action -/

theorem returns_act {m : Machine} (h : ∀ r ∈ m.stack.toList, 2 ≤ r.toNat ∧ r.toNat ≤ 0x1000)
    (a : Action) :
    ∀ r ∈ (m.act a).machine.stack.toList, 2 ≤ r.toNat ∧ r.toNat ≤ 0x1000 := by
  intro r hr
  rcases m.act_stack_cases a with hs | ⟨_, hp, hs⟩ | ⟨_, _, hs, _⟩
  · rw [hs] at hr
    exact h r hr
  · rw [CallStack.toList_push hs, List.mem_append, List.mem_singleton] at hr
    rcases hr with hr | rfl
    · exact h r hr
    · have hle := (peek_eq_ok_iff.mp hp).1
      rw [toNat_pc_add_two hp]
      omega
  · refine h r ?_
    rw [CallStack.toList_of_pop? hs]
    exact List.mem_append_left _ hr

theorem Bounded.cycle {m : Machine} (h : m.Bounded) (t : Time) :
    (m.cycle t).machine.pc.toNat ≤ 0x10FE ∧ (m.cycle t).machine.index.toNat ≤ 0xFFF := by
  rcases m.cycle_cases t with ⟨-, hc⟩ | ⟨hle, -, hc⟩ | ⟨i, hi, -⟩
  · rw [hc]
    exact ⟨h.pc, h.index⟩
  · rw [hc]
    refine ⟨?_, h.index⟩
    show m.stepOver.pc.toNat ≤ _
    rw [toNat_pc_stepOver (by omega)]
    omega
  · rw [machine_cycle_of_peek t hi]
    have hle := (peek_eq_ok_iff.mp hi).1
    have hwf := wellFormed_of_peek hi
    exact ⟨pc_execute_le (m := m.tick t) hwf hle fun a ha => (h.returns a ha).2,
      index_execute_le hwf h.index⟩

theorem Bounded.act {m : Machine} (h : m.Bounded) (a : Action) :
    (m.act a).machine.Bounded := by
  have hs := returns_act h.returns a
  have hc := cleared_act h.cleared a
  cases a with
  | cycle t => exact ⟨(h.cycle t).1, (h.cycle t).2, hs, hc⟩
  | setKeys codes => exact ⟨h.pc, h.index, hs, hc⟩

theorem Reachable.bounded {m : Machine} (h : m.Reachable) : m.Bounded := by
  induction h with
  | load hl =>
      obtain ⟨-, rfl⟩ := load_eq_ok_iff.mp hl
      refine ⟨?_, Nat.zero_le _, ?_, CallStack.cleared_empty⟩
      · show 0x200 ≤ 0x10FE
        decide
      · rintro a ⟨⟩
  | act a _ ih => exact ih.act a

/-! ## What the bounds are good for -/

theorem Bounded.slot {m : Machine} (h : m.Bounded) {k : Nat} (hk : k < 16)
    (hd : k < m.stack.depth) :
    2 ≤ (m.stack.slots[k]).toNat ∧ (m.stack.slots[k]).toNat ≤ 0x1000 :=
  h.returns _ (List.mem_of_getElem? (CallStack.getElem?_toList hk hd))

/-- **Bounds of a running machine.** Whatever a program has done, its
program counter, index and call stack are within these bounds. So no sum
or difference of addresses wraps around, be it the step over an
instruction, a skip, a jump with an offset, a step back to wait for a key
or an addition to the index, and no instruction and no action reaches past
an array. -/
theorem bounds_of_reachable {m : Machine} (h : m.Reachable) :
    (m.pc.toNat ≤ 0x10FE ∧ m.index.toNat ≤ 0xFFF ∧ m.stack.depth ≤ 16
      ∧ ∀ k (hk : k < 16),
          (k < m.stack.depth →
            2 ≤ (m.stack.slots[k]).toNat ∧ (m.stack.slots[k]).toNat ≤ 0x1000)
          ∧ (m.stack.depth ≤ k → m.stack.slots[k] = 0))
    ∧ (m.pc.toNat + 2 ≤ 65535
      ∧ m.stepOver.pc.toNat + 2 ≤ 65535
      ∧ 2 ≤ m.stepOver.pc.toNat
      ∧ (∀ base : Address, base.toNat ≤ 0xFFF →
          base.toNat + (m.registers.get .first).toNat ≤ 65535)
      ∧ ∀ x, m.index.toNat + (m.registers.get x).toNat ≤ 65535)
    ∧ (∀ i, i.WellFormed →
        Checked.execute m.stepOver i = some (m.stepOver.execute i))
    ∧ ∀ a, Checked.act m a = some (m.act a) := by
  have hb := h.bounded
  have hpc := hb.pc
  have hindex := hb.index
  have hnext : m.stepOver.pc.toNat = m.pc.toNat + 2 := toNat_pc_stepOver (by omega)
  refine ⟨⟨hpc, hindex, m.stack.depth_le, ?_⟩, ⟨?_, ?_, ?_, ?_, ?_⟩, ?_, ?_⟩
  · intro k hk
    exact ⟨hb.slot hk, hb.cleared k hk⟩
  · omega
  · omega
  · omega
  · intro base hbase
    have hv := (m.registers.get .first).toNat_lt
    omega
  · intro x
    have hv := (m.registers.get x).toNat_lt
    omega
  · intro i hi
    have hstep : m.stepOver.index.toNat + 255 < 65536 :=
      Nat.lt_of_le_of_lt (Nat.add_le_add_right hindex 255) (by decide)
    exact Checked.execute_eq hi (by omega) (by omega) hstep
  · intro a
    exact Checked.act_eq a (by omega)

/-- A call to its own address, made twice. -/
theorem bounds_of_nested_call :
    let m := (loaded [0x22, 0x00] (.ofSeed 0) 0).run [.cycle 3, .cycle 1]
    m.Reachable
    ∧ (m.stack.depth = 2 ∧ 2 ≤ (m.stack.slots[1]).toNat ∧ (m.stack.slots[1]).toNat ≤ 0x1000)
    ∧ Checked.act m (.cycle 2) = some (m.act (.cycle 2)) := by
  intro m
  have hm : m.Reachable := .run (.loaded _ _ (by decide)) _
  have hdepth : m.stack.depth = 2 := by
    let m₀ := loaded [0x22, 0x00] (.ofSeed 0) 0
    have hpeek {m' : Machine} := @peek_of_program m' [0x22, 0x00] 0
    let s₁ : CallStack := ⟨CallStack.empty.slots.set 0 0x202, 1, by decide⟩
    let s₂ : CallStack := ⟨s₁.slots.set 1 0x202, 2, by decide⟩
    have h₁ : (m₀.act (.cycle 3)).machine = { m₀ with stack := s₁ } :=
      machine_cycle_call 3 (hpeek rfl rfl (by decide) rfl rfl rfl) rfl
    have h₂ : (({ m₀ with stack := s₁ } : Machine).act (.cycle 1)).machine
        = { m₀ with stack := s₂ } :=
      machine_cycle_call 1 (hpeek rfl rfl (by decide) rfl rfl rfl) rfl
    have hrun : m = { m₀ with stack := s₂ } := (run_cons_of_act h₁).trans (run_cons_of_act h₂)
    rw [hrun]
  obtain ⟨⟨-, -, -, hslots⟩, -, -, hact⟩ := bounds_of_reachable hm
  exact ⟨hm, ⟨hdepth, (hslots 1 (by decide)).1 (by omega)⟩, hact _⟩

end Machine

namespace Checked

def run (m : Machine) : List Machine.Action → Option Machine
  | [] => some m
  | a :: rest => do run (← act m a).machine rest

/-- Loads a program and runs it. -/
def start (program : List UInt8) (random : Generator) (created : Time)
    (l : List Machine.Action) : Option (Except Fault Machine) := do
  match ← load program random created with
  | .error fault => return .error fault
  | .ok m => return .ok (← run m l)

theorem run_eq {m : Machine} (h : m.Bounded) (l : List Machine.Action) :
    run m l = some (m.run l) := by
  induction l generalizing m with
  | nil => rfl
  | cons a l ih =>
      have hindex := h.index
      have hact : act m a = some (m.act a) := act_eq a (by omega)
      simp only [run, hact, Option.bind_eq_bind, Option.bind_some]
      exact ih (h.act a)

/-- No program can be run out of any bound. -/
theorem start_eq (program : List UInt8) (random : Generator) (created : Time)
    (l : List Machine.Action) :
    start program random created l
      = some ((Machine.load program random created).map (·.run l)) := by
  simp only [start, load_eq, Option.bind_eq_bind, Option.bind_some]
  cases hm : Machine.load program random created with
  | error fault => rfl
  | ok m =>
      simp only [run_eq (Machine.Reachable.load hm).bounded, Option.bind_some]
      rfl

end Checked

end Chip8

import Chip8.Proofs.Memory

/-!
# What an instruction leaves alone

`Instruction.Writes` says which parts of a machine an instruction can
change. It changes no other (`execute_agreeOn`), and neither does the
cycle that executes it, but for the two countdowns, which the clock moves
as well (`cycle_agreeOn`). A part that no instruction of a run writes is
the same after the run (`run_agreeOn`).
-/

namespace Chip8

/-- The parts of a machine that an instruction can change. The program
counter, which every cycle moves, is not one of them. -/
inductive Part where
  | memory
  | register (r : Register)
  | index
  | stack
  | display
  | random
  | delay
  | sound
deriving Repr, DecidableEq

/-- The clock does not change the part. -/
def Part.Untimed : Part → Prop
  | delay | sound => False
  | _ => True

/-- The operation writes the flag register besides its target. -/
def Arith.HasFlag : Arith → Prop
  | copy | or | and | xor => False
  | add | sub | shiftRight | subFrom | shiftLeft => True

theorem Arith.get_apply_of_ne {op : Arith} {x y r : Register} {v : Registers} (hx : r ≠ x)
    (hf : op.HasFlag → r ≠ .flag) : (op.apply x y v).get r = v.get r := by
  have hv : ∀ b, (v.set x b).get r = v.get r := fun b => Registers.get_set_of_ne v b hx
  cases op with
  | copy | or | and | xor => exact hv _
  | _ => exact (Registers.get_setFlag_of_ne _ _ (hf trivial)).trans (hv _)

/-- The parts that an instruction can change. -/
def Instruction.Writes : Instruction → Part → Prop
  | clear, .display | draw .., .display => True
  | decimal _, .memory | save _, .memory => True
  | call _, .stack | ret, .stack => True
  | setIndex _, .index | addIndex _, .index | glyph _, .index => True
  | random .., .random => True
  | setDelay _, .delay => True
  | setSound _, .sound => True
  | setByte x _, .register r | addByte x _, .register r | random x _, .register r
  | readDelay x, .register r | awaitKey x, .register r => r = x
  | arith op x _, .register r => r = x ∨ (op.HasFlag ∧ r = .flag)
  | draw .., .register r | addIndex _, .register r => r = .flag
  | restore x, .register r => r ≤ x
  | _, _ => False

namespace Machine

/-- Two machines are the same in one part. -/
def AgreeOn (m m' : Machine) : Part → Prop
  | .memory => m.memory = m'.memory
  | .register r => m.registers.get r = m'.registers.get r
  | .index => m.index = m'.index
  | .stack => m.stack = m'.stack
  | .display => m.display = m'.display
  | .random => m.random = m'.random
  | .delay => m.timers.delay = m'.timers.delay
  | .sound => m.timers.sound = m'.timers.sound

theorem AgreeOn.refl (m : Machine) (p : Part) : m.AgreeOn m p := by
  cases p <;> rfl

theorem AgreeOn.trans {m₁ m₂ m₃ : Machine} {p : Part} (h₁ : m₁.AgreeOn m₂ p)
    (h₂ : m₂.AgreeOn m₃ p) : m₁.AgreeOn m₃ p := by
  cases p <;> exact Eq.trans h₁ h₂

/-! ## One instruction -/

/-- An instruction changes no part that it does not write. -/
theorem execute_agreeOn (m : Machine) {i : Instruction} {p : Part} (h : ¬ i.Writes p) :
    (m.execute i).machine.AgreeOn m p := by
  cases i with
  | clear => cases p with
    | display => exact absurd trivial h
    | _ => rfl
  | ret => cases p with
    | stack => exact absurd trivial h
    | _ => simp only [execute]; split <;> rfl
  | call target => cases p with
    | stack => exact absurd trivial h
    | _ => simp only [execute]; split <;> rfl
  | jump _ | jumpOffset _ => cases p <;> rfl
  | skip _ => simp only [execute]; split <;> cases p <;> rfl
  | setByte x _ | addByte x _ | readDelay x => cases p with
    | register r => exact Registers.get_set_of_ne _ _ h
    | _ => rfl
  | arith op x y => cases p with
    | register r =>
        exact Arith.get_apply_of_ne (fun hr => h (Or.inl hr)) fun hf hr => h (Or.inr ⟨hf, hr⟩)
    | _ => rfl
  | setIndex _ | glyph _ => cases p with
    | index => exact absurd trivial h
    | _ => rfl
  | random x _ => cases p with
    | random => exact absurd trivial h
    | register r => exact Registers.get_set_of_ne _ _ h
    | _ => rfl
  | draw _ _ _ => cases p with
    | display => exact absurd trivial h
    | register r => exact Registers.get_setFlag_of_ne _ _ h
    | _ => rfl
  | awaitKey x => cases p with
    | register r =>
        simp only [execute]
        split
        · exact Registers.get_set_of_ne _ _ h
        · rfl
    | _ => simp only [execute]; split <;> rfl
  | setDelay _ => cases p with
    | delay => exact absurd trivial h
    | _ => rfl
  | setSound _ => cases p with
    | sound => exact absurd trivial h
    | _ => rfl
  | addIndex _ => cases p with
    | index => exact absurd trivial h
    | register r =>
        show (if _ then _ else _ : Registers).get r = _
        split
        · exact Registers.get_setFlag_of_ne _ _ h
        · rfl
    | _ => rfl
  | decimal _ | save _ => cases p with
    | memory => exact absurd trivial h
    | _ => rfl
  | restore x => cases p with
    | register r =>
        have hr : (m.memory.readList m.index (x.val + 1)).length ≤ r.val := by
          rw [Memory.length_readList]
          exact Nat.lt_of_not_le h
        show (m.registers.setFrom 0 _).get r = _
        rw [Registers.get_setFrom_zero, List.getElem?_eq_none hr, Option.getD_none]
    | _ => rfl

@[simp] theorem keypad_execute (m : Machine) (i : Instruction) :
    (m.execute i).machine.keypad = m.keypad := by
  cases i <;> simp only [execute] <;> first | rfl | (split <;> rfl)

@[simp] theorem lastTick_execute (m : Machine) (i : Instruction) :
    (m.execute i).machine.timers.lastTick = m.timers.lastTick := by
  cases i <;> simp only [execute] <;> first | rfl | (split <;> rfl)

/-! ## One cycle -/

theorem tick_agreeOn (m : Machine) (t : Time) {p : Part} (h : p.Untimed) :
    (m.tick t).AgreeOn m p := by
  cases p with
  | delay | sound => exact h.elim
  | _ => rfl

theorem cycle_agreeOn (m : Machine) (t : Time) {p : Part}
    (h : ∀ i, m.peek = .ok i → ¬ i.Writes p) : (m.cycle t).machine.AgreeOn (m.tick t) p := by
  rcases m.cycle_cases t with ⟨-, hc⟩ | ⟨-, -, hc⟩ | ⟨i, hi, hc⟩
  · rw [hc]
    exact AgreeOn.refl _ p
  · rw [hc]
    cases p <;> rfl
  · rw [hc]
    refine AgreeOn.trans (execute_agreeOn _ (h i hi)) ?_
    cases p <;> rfl

theorem keypad_cycle (m : Machine) (t : Time) : (m.cycle t).machine.keypad = m.keypad := by
  rcases m.cycle_cases t with ⟨-, hc⟩ | ⟨-, -, hc⟩ | ⟨i, -, hc⟩
  · rw [hc]; rfl
  · rw [hc]; rfl
  · rw [hc, Outcome.machine_announce, keypad_execute]; rfl

theorem lastTick_cycle (m : Machine) (t : Time) :
    (m.cycle t).machine.timers.lastTick = (m.timers.update t).lastTick := by
  rcases m.cycle_cases t with ⟨-, hc⟩ | ⟨-, -, hc⟩ | ⟨i, -, hc⟩
  · rw [hc]; rfl
  · rw [hc]; rfl
  · rw [hc, Outcome.machine_announce, lastTick_execute]; rfl

/-! ## Whole runs -/

theorem act_agreeOn (m : Machine) (a : Action) {p : Part} (hp : p.Untimed)
    (h : ∀ i, m.performed? a = some i → ¬ i.Writes p) :
    (m.act a).machine.AgreeOn m p := by
  cases a with
  | cycle t =>
      have hi : ∀ i, m.peek = .ok i → ¬ i.Writes p := fun i hi =>
        h i (performed?_eq_some_iff.mpr ⟨⟨t, rfl⟩, hi⟩)
      exact (m.cycle_agreeOn t hi).trans (tick_agreeOn m t hp)
  | setKeys codes => cases p <;> rfl

/-- What no instruction of a run writes is after the run as it was before. -/
theorem run_agreeOn {m : Machine} {l : List Action} {p : Part} (hp : p.Untimed)
    (h : ∀ i ∈ m.executed l, ¬ i.Writes p) : (m.run l).AgreeOn m p := by
  induction l generalizing m with
  | nil => exact AgreeOn.refl m p
  | cons a l ih =>
      have ha := m.act_agreeOn a hp fun i hi => h i (mem_executed_cons.mpr (Or.inl hi))
      have hl := ih fun i hi => h i (mem_executed_cons.mpr (Or.inr hi))
      exact hl.trans ha

/-- **Frame law.** A cycle changes the parts that its instruction writes;
to any other part it does what the clock does, which is nothing but to the
countdowns. The clock alone sets their anchor, and a cycle never changes
the keypad. So the display stays as it is without a clear or a draw, and
the memory, the program in it included, without a decimal or a save. -/
theorem frame_law (m : Machine) :
    (∀ t i, m.peek = .ok i →
      (∀ p, ¬ i.Writes p → (m.cycle t).machine.AgreeOn (m.tick t) p)
      ∧ (m.cycle t).machine.timers.lastTick = (m.timers.update t).lastTick
      ∧ (m.cycle t).machine.keypad = m.keypad)
    ∧ (∀ l, (∀ i ∈ m.executed l, ¬ i.Writes .display) → (m.run l).display = m.display)
    ∧ (∀ l, (∀ i ∈ m.executed l, ¬ i.Writes .memory) → (m.run l).memory = m.memory) := by
  refine ⟨?_, ?_, ?_⟩
  · intro t i hi
    refine ⟨?_, m.lastTick_cycle t, m.keypad_cycle t⟩
    intro p hp
    refine m.cycle_agreeOn t ?_
    intro j hj
    obtain rfl : i = j := Except.ok.inj (hi.symm.trans hj)
    exact hp
  · intro l h
    exact run_agreeOn (p := .display) trivial h
  · intro l h
    exact run_agreeOn (p := .memory) trivial h

/-- Adding the flag register to the index can change that register, but
neither the display nor the register before it. -/
theorem frame_law_addIndex_flag :
    let m := loaded [0xFF, 0x1E] (.ofSeed 0) 0
    (m.peek = .ok (.addIndex .flag) ∧ m.executed [.cycle 7] = [.addIndex .flag])
    ∧ (m.cycle 7).machine.AgreeOn (m.tick 7) (.register 14)
    ∧ (m.run [.cycle 7]).display = m.display := by
  intro m
  have hp : m.peek = .ok (.addIndex .flag) :=
    peek_of_program [0xFF, 0x1E] 0 rfl rfl (by decide) rfl rfl rfl
  have he : m.executed [.cycle 7] = [.addIndex .flag] := executed_cycle_cons 7 [] hp
  obtain ⟨hcycle, hdisplay, -⟩ := frame_law m
  refine ⟨⟨hp, he⟩, (hcycle 7 _ hp).1 _ (by decide : ¬ (14 : Register) = .flag), ?_⟩
  refine hdisplay _ fun i hi => ?_
  rw [he, List.mem_singleton] at hi
  subst hi
  exact id

end Machine

end Chip8

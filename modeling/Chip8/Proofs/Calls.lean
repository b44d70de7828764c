import Chip8.Proofs.Frame
import Chip8.Proofs.Memory
import Chip8.Proofs.Stack

/-!
# Calls and returns

The stack changes by calls and returns only (`act_stack_cases`), one
address at a time. So while the depth stays above what it was at a call,
the caller's addresses and the return address stay where they are, at the
bottom of the stack (`run_stack_bottom`), and the action that first gets
back to the caller's depth can only be the return that belongs to the
call.
-/

namespace Chip8

namespace Machine

/-! ## How the stack changes -/

theorem execute_ret_of_pop? {m : Machine} {a : Address} {s : CallStack}
    (h : m.stack.pop? = some (a, s)) :
    (m.execute .ret).machine = { m with pc := a, stack := s } := by
  simp only [execute, h]
  rfl

theorem execute_call_of_push {m : Machine} {target : Address} {s : CallStack}
    (h : m.stack.push m.pc = .ok s) :
    (m.execute (.call target)).machine = { m with pc := target, stack := s } := by
  simp only [execute, h]
  rfl

theorem execute_stack_cases (m : Machine) (i : Instruction) :
    (m.execute i).machine.stack = m.stack
    ∨ (∃ target, i = .call target ∧ m.stack.push m.pc = .ok (m.execute i).machine.stack)
    ∨ (i = .ret ∧ ∃ a, m.stack.pop? = some (a, (m.execute i).machine.stack)
        ∧ (m.execute i).machine.pc = a) := by
  cases i with
  | call target =>
      cases hs : m.stack.push m.pc with
      | ok s => exact Or.inr (Or.inl ⟨target, rfl, by rw [execute_call_of_push hs]⟩)
      | error f => exact Or.inl (by simp only [execute, hs]; rfl)
  | ret =>
      cases hs : m.stack.pop? with
      | some r =>
          have hm := execute_ret_of_pop? hs
          exact Or.inr (Or.inr ⟨rfl, r.1, by rw [hm], by rw [hm]⟩)
      | none => exact Or.inl (by simp only [execute, hs]; rfl)
  | _ => exact Or.inl (m.execute_agreeOn (p := .stack) id)

/-- An action leaves the stack as it is, or it is a cycle that calls or
one that returns. -/
theorem act_stack_cases (m : Machine) (a : Action) :
    (m.act a).machine.stack = m.stack
    ∨ (∃ target, m.peek = .ok (.call target)
        ∧ m.stack.push (m.pc + 2) = .ok (m.act a).machine.stack)
    ∨ (m.peek = .ok .ret ∧ ∃ r, m.stack.pop? = some (r, (m.act a).machine.stack)
        ∧ (m.act a).machine.pc = r) := by
  cases a with
  | setKeys codes => exact Or.inl rfl
  | cycle t =>
      show (m.cycle t).machine.stack = _ ∨ _
      rcases m.cycle_cases t with ⟨-, hc⟩ | ⟨-, -, hc⟩ | ⟨i, hi, -⟩
      · exact Or.inl (by rw [hc]; rfl)
      · exact Or.inl (by rw [hc]; rfl)
      · simp only [act, machine_cycle_of_peek t hi]
        rcases (m.tick t).stepOver.execute_stack_cases i with h | ⟨target, rfl, h⟩ | ⟨rfl, h⟩
        · exact Or.inl h
        · exact Or.inr (Or.inl ⟨target, hi, h⟩)
        · exact Or.inr (Or.inr ⟨hi, h⟩)

theorem machine_cycle_call {m : Machine} {target : Address} {s : CallStack} (t : Time)
    (hp : m.peek = .ok (.call target)) (hs : m.stack.push (m.pc + 2) = .ok s) :
    (m.cycle t).machine
      = { m with pc := target, stack := s, timers := m.timers.update t } := by
  rw [machine_cycle_of_peek t hp, execute_call_of_push hs]
  rfl

theorem machine_cycle_ret {m : Machine} {a : Address} {s : CallStack} (t : Time)
    (hp : m.peek = .ok .ret) (hs : m.stack.pop? = some (a, s)) :
    (m.cycle t).machine = { m with pc := a, stack := s, timers := m.timers.update t } := by
  have hs' : (m.tick t).stepOver.stack.pop? = some (a, s) := hs
  rw [machine_cycle_of_peek t hp, execute_ret_of_pop? hs']
  rfl

/-! ## Unused slots -/

theorem cleared_act {m : Machine} (h : m.stack.Cleared) (a : Action) :
    (m.act a).machine.stack.Cleared := by
  rcases m.act_stack_cases a with hs | ⟨_, _, hs⟩ | ⟨_, _, hs, _⟩
  · rw [hs]
    exact h
  · exact h.push hs
  · exact h.pop? hs

theorem Reachable.cleared {m : Machine} (h : m.Reachable) : m.stack.Cleared := by
  induction h with
  | load hl =>
      obtain ⟨-, rfl⟩ := load_eq_ok_iff.mp hl
      exact CallStack.cleared_empty
  | act a _ ih => exact cleared_act ih a

/-! ## While the depth stays above a bound -/

/-- The depth is above `d` before and after every action of the run. -/
def StaysAbove (m : Machine) (d : Nat) : List Action → Prop
  | [] => d < m.stack.depth
  | a :: l => d < m.stack.depth ∧ (m.act a).machine.StaysAbove d l

theorem StaysAbove.head {m : Machine} {d : Nat} {l : List Action} (h : m.StaysAbove d l) :
    d < m.stack.depth := by
  cases l with
  | nil => exact h
  | cons a l => exact h.1

theorem StaysAbove.last {m : Machine} {d : Nat} {l : List Action} (h : m.StaysAbove d l) :
    d < (m.run l).stack.depth := by
  induction l generalizing m with
  | nil => exact h
  | cons a l ih => exact ih h.2

theorem act_stack_bottom {m : Machine} {a : Action} {base : List Address}
    (h : base <+: m.stack.toList) (hd : base.length ≤ (m.act a).machine.stack.depth) :
    base <+: (m.act a).machine.stack.toList := by
  rcases m.act_stack_cases a with hs | ⟨_, _, hs⟩ | ⟨_, _, hs, _⟩
  · rwa [hs]
  · rw [CallStack.toList_push hs]
    exact h.trans (List.prefix_append _ _)
  · rw [CallStack.toList_of_pop? hs] at h
    exact List.prefix_of_prefix_length_le h (List.prefix_append _ _) (by simpa using hd)

/-- Addresses at the bottom of the stack stay there while the depth does
not fall below their number. -/
theorem run_stack_bottom {m : Machine} {d : Nat} {l : List Action} {base : List Address}
    (hb : base.length = d + 1) (h : base <+: m.stack.toList) (hd : m.StaysAbove d l) :
    base <+: (m.run l).stack.toList := by
  induction l generalizing m with
  | nil => exact h
  | cons a l ih =>
      have hle : base.length ≤ (m.act a).machine.stack.depth := by
        rw [hb]
        exact hd.2.head
      exact ih (act_stack_bottom h hle) hd.2

/-! ## The return of a call -/

/-- A cycle that takes the depth from above a bound to the bound returns. -/
theorem cycle_pop_of_depth {m : Machine} {d : Nat} {t : Time} (h : d < m.stack.depth)
    (hd : (m.cycle t).machine.stack.depth = d) :
    m.peek = .ok .ret ∧ m.stack.toList
      = (m.cycle t).machine.stack.toList ++ [(m.cycle t).machine.pc] := by
  rcases m.act_stack_cases (.cycle t) with hs | ⟨_, _, hs⟩ | ⟨hp, r, hs, rfl⟩
  · have heq : (m.cycle t).machine.stack.depth = m.stack.depth := congrArg CallStack.depth hs
    omega
  · have heq : (m.cycle t).machine.stack.depth = m.stack.depth + 1 := CallStack.depth_of_push hs
    omega
  · exact ⟨hp, CallStack.toList_of_pop? hs⟩

/-- **Calls and returns are well bracketed.** After a call that the stack
had room for, whatever runs while the depth stays above the caller's, the
cycle that gets back to the caller's depth is a return; it goes on right
after the call, on the very stack that the caller had. -/
theorem return_of_call {m last : Machine} {target : Address} {t₀ t : Time} {l : List Action}
    (hm : m.Reachable) (hcall : m.peek = .ok (.call target)) (hroom : m.stack.depth < 16)
    (habove : (m.cycle t₀).machine.StaysAbove m.stack.depth l)
    (hlast : (m.cycle t₀).machine.run l = last)
    (hback : (last.cycle t).machine.stack.depth = m.stack.depth) :
    last.peek = .ok .ret
    ∧ (last.cycle t).fault? = none
    ∧ (last.cycle t).machine.pc.toNat = m.pc.toNat + 2
    ∧ (last.cycle t).machine.stack = m.stack := by
  subst hlast
  have hr := ((hm.act (.cycle t₀)).run l).act (.cycle t)
  have hpush : m.stack.push (m.pc + 2) = .ok (m.cycle t₀).machine.stack := by
    have hroom' := CallStack.push_of_lt (m.pc + 2) hroom
    rw [machine_cycle_call t₀ hcall hroom']
    exact hroom'
  have hbottom : m.stack.toList ++ [m.pc + 2] <+: ((m.cycle t₀).machine.run l).stack.toList := by
    refine run_stack_bottom (by simp) ?_ habove
    exact CallStack.toList_push hpush ▸ List.prefix_refl _
  obtain ⟨hp, hpop⟩ := cycle_pop_of_depth habove.last hback
  -- one address is popped, so the bottom was all there was
  rw [hpop] at hbottom
  have hlist := hbottom.eq_of_length (by simpa using hback.symm)
  obtain ⟨hstack, hpc⟩ := List.append_inj' hlist rfl
  refine ⟨hp, ?_, ?_, ?_⟩
  · rw [fault?_cycle_of_peek t hp, fault?_execute]
  · rw [← (List.cons.inj hpc).1]
    exact toNat_pc_add_two hcall
  · exact CallStack.eq_of_toList_eq hr.cleared hm.cleared hstack.symm

/-- A call to `0x206`, which calls `0x20A` and returns; both return at once. -/
private def nestedCalls : List UInt8 :=
  [0x22, 0x06, 0x12, 0x02, 0x00, 0x00, 0x22, 0x0A, 0x00, 0xEE, 0x00, 0xEE]

theorem return_of_nestedCalls :
    let m := loaded nestedCalls (.ofSeed 0) 0
    let l := [.cycle 5, .setKeys [3], .cycle 2]
    ∃ last : Machine,
      (m.Reachable ∧ m.peek = .ok (.call 0x206) ∧ m.stack.depth < 16
        ∧ (m.cycle 0).machine.StaysAbove m.stack.depth l
        ∧ (m.cycle 0).machine.run l = last
        ∧ (last.cycle 9).machine.stack.depth = m.stack.depth)
      ∧ last.peek = .ok .ret
      ∧ (last.cycle 9).fault? = none
      ∧ (last.cycle 9).machine.pc.toNat = m.pc.toNat + 2
      ∧ (last.cycle 9).machine.stack = m.stack := by
  intro m l
  have hm : m.Reachable := .loaded _ _ (by decide)
  have hpeek {m' : Machine} := @peek_of_program m' nestedCalls
  have hcall : m.peek = .ok (.call 0x206) := hpeek 0 rfl rfl (by decide) rfl rfl rfl
  have hroom : m.stack.depth < 16 := by decide
  -- the machines on the way, as far as they differ from the first
  let s₁ : CallStack := ⟨CallStack.empty.slots.set 0 0x202, 1, by decide⟩
  let s₂ : CallStack := ⟨s₁.slots.set 1 0x208, 2, by decide⟩
  let m₁ : Machine := { m with pc := 0x206, stack := s₁ }
  let m₂ : Machine := { m with pc := 0x20A, stack := s₂ }
  let m₃ : Machine := { m₂ with keypad := .ofCodes [3] }
  let m₄ : Machine := { m₃ with pc := 0x208, stack := ⟨s₂.slots.set 1 0, 1, by decide⟩ }
  have h₁ : (m.cycle 0).machine = m₁ := machine_cycle_call 0 hcall rfl
  have h₂ : (m₁.cycle 5).machine = m₂ :=
    machine_cycle_call 5 (hpeek 6 rfl rfl (by decide) rfl rfl rfl) rfl
  have h₃ : (m₂.setKeys [3]).machine = m₃ := rfl
  have h₄ : (m₃.cycle 2).machine = m₄ :=
    machine_cycle_ret 2 (hpeek 10 rfl rfl (by decide) rfl rfl rfl) rfl
  have h₅ := machine_cycle_ret (m := m₄) 9 (hpeek 8 rfl rfl (by decide) rfl rfl rfl) rfl
  have hrun₂ : m₁.run l = m₂.run [.setKeys [3], .cycle 2] := run_cons_of_act h₂
  have hrun₃ : m₂.run [.setKeys [3], .cycle 2] = m₃.run [.cycle 2] := run_cons_of_act h₃
  have hrun₄ : m₃.run [.cycle 2] = m₄ := run_cons_of_act h₄
  have hlast : (m.cycle 0).machine.run l = m₄ := by rw [h₁, hrun₂, hrun₃, hrun₄]
  have habove : (m.cycle 0).machine.StaysAbove m.stack.depth l := by
    simp only [l, StaysAbove, act, h₁, h₂, h₃, h₄]
    show 0 < 1 ∧ 0 < 2 ∧ 0 < 2 ∧ 0 < 1
    decide
  have hback : (m₄.cycle 9).machine.stack.depth = m.stack.depth := by
    rw [h₅]
    rfl
  exact ⟨m₄, ⟨hm, hcall, hroom, habove, hlast, hback⟩,
    return_of_call hm hcall hroom habove hlast hback⟩

end Machine

end Chip8

import Mathlib.Order.Bounds.Defs
import Chip8.Proofs.ProgramCounter
import Chip8.Proofs.Ticks

/-!
# Waiting for a key

An instruction that waits for a key is executed again and again: the cycle
steps over it and takes the step back. On a machine that `Waits` every
action that brings no key keeps it waiting, and only the clock moves
(`cycle_of_waits`, `Waits.run`). The first cycle after a key takes the
lowest one and goes on (`machine_cycle_of_first?`).
-/

namespace Chip8

namespace Machine

/-- No key comes with the action. -/
def Action.Silent : Action → Prop
  | .cycle _ => True
  | .setKeys codes => ∀ c ∈ codes, ¬ Keypad.IsKey c

/-- The times of the cycles among the actions. -/
def times : List Action → List Time
  | [] => []
  | .cycle t :: l => t :: times l
  | .setKeys _ :: l => times l

/-- The next instruction waits for a key, and there is none. -/
structure Waits (m : Machine) (x : Register) : Prop where
  peek : m.peek = .ok (.awaitKey x)
  keypad : m.keypad = .none

/-! ## While there is no key -/

theorem cycle_of_waits {m : Machine} {x : Register} (h : m.Waits x) (t : Time) :
    (m.cycle t).fault? = none ∧ (m.cycle t).machine = m.tick t := by
  refine ⟨by rw [fault?_cycle_of_peek t h.peek, fault?_execute], ?_⟩
  have hnone : (m.tick t).stepOver.keypad.first? = none := by
    refine Keypad.first?_eq_none_iff.mpr fun c => ?_
    show ¬ m.keypad.isDown c
    rw [h.keypad, Keypad.isDown_none]
    exact Bool.false_ne_true
  have hpc : m.pc + 2 - 2 = m.pc := UInt16.add_sub_cancel ..
  rw [machine_cycle_of_peek t h.peek, execute_awaitKey_of_none hnone]
  show { m.tick t with pc := m.pc + 2 - 2 } = m.tick t
  rw [hpc]
  rfl

theorem setKeys_of_waits {m : Machine} {x : Register} (h : m.Waits x) {codes : List UInt8}
    (hc : ∀ c ∈ codes, ¬ Keypad.IsKey c) : (m.setKeys codes).machine = m := by
  simp only [setKeys, Keypad.ofCodes_eq_none hc, ← h.keypad]

namespace Waits

variable {m : Machine} {x : Register}

theorem tick (h : m.Waits x) (t : Time) : (m.tick t).Waits x := ⟨h.peek, h.keypad⟩

/-- Only the clock moves, and it moves at the times of the cycles. -/
theorem run (h : m.Waits x) {l : List Action} (hl : ∀ a ∈ l, a.Silent) :
    (∀ f ∈ m.faults l, f = none)
    ∧ m.run l = { m with timers := m.timers.updates (times l) } := by
  induction l generalizing m with
  | nil => exact ⟨List.forall_mem_nil _, rfl⟩
  | cons a l ih =>
      obtain ⟨ha, hl'⟩ := List.forall_mem_cons.mp hl
      cases a with
      | cycle t =>
          obtain ⟨hfault, hcycle⟩ := cycle_of_waits h t
          obtain ⟨hfaults, hrun⟩ := ih (h.tick t) hl'
          rw [faults, run_cons, act, hcycle, hrun]
          exact ⟨List.forall_mem_cons.mpr ⟨hfault, hfaults⟩, rfl⟩
      | setKeys codes =>
          obtain ⟨hfaults, hrun⟩ := ih h hl'
          rw [faults, run_cons, act, setKeys_of_waits h ha, hrun]
          exact ⟨List.forall_mem_cons.mpr ⟨rfl, hfaults⟩, rfl⟩

end Waits

/-! ## When there is one -/

theorem machine_cycle_of_first? {m : Machine} {x : Register} {key : UInt8} (t : Time)
    (hm : m.peek = .ok (.awaitKey x)) (hkey : m.keypad.first? = some key) :
    (m.cycle t).machine
      = { m with
          timers := m.timers.update t
          pc := m.pc + 2
          registers := m.registers.set x key } := by
  have hkey' : (m.tick t).stepOver.keypad.first? = some key := hkey
  rw [machine_cycle_of_peek t hm, execute_awaitKey_of_some hkey']
  rfl

theorem exists_first?_ofCodes {codes : List UInt8} (h : ∃ c ∈ codes, Keypad.IsKey c) :
    ∃ key, (Keypad.ofCodes codes).first? = some key
      ∧ IsLeast {c | c ∈ codes ∧ Keypad.IsKey c} key := by
  cases hfirst : (Keypad.ofCodes codes).first? with
  | none =>
      obtain ⟨c, hc, hk⟩ := h
      exact absurd (Keypad.isDown_ofCodes_iff.mpr ⟨hk, hc⟩) (Keypad.first?_eq_none_iff.mp hfirst c)
  | some key =>
      obtain ⟨hdown, hle⟩ := Keypad.first?_eq_some_iff.mp hfirst
      refine ⟨key, rfl, (Keypad.isDown_ofCodes_iff.mp hdown).symm, ?_⟩
      rintro c ⟨hc, hk⟩
      exact hle c (Keypad.isDown_ofCodes_iff.mpr ⟨hk, hc⟩)

/-- **Waiting for a key.** As long as no key comes, every cycle of a
machine that waits for one succeeds and changes nothing but the timers,
which count down as the times of the cycles have it; the program counter
stays at the instruction that waits. The first cycle after keys have come
puts the lowest of them into the register, and goes on. -/
theorem key_wait {m : Machine} {x : Register} {l : List Action}
    (hm : m.peek = .ok (.awaitKey x)) (hup : m.keypad.isEmpty) (hl : ∀ a ∈ l, a.Silent) :
    (∀ f ∈ m.faults l, f = none)
    ∧ (∀ n, m.run (l.take n) = { m with timers := m.timers.updates (times (l.take n)) })
    ∧ ∀ codes t, (∃ c ∈ codes, Keypad.IsKey c) →
        let next := ((m.run l).setKeys codes).machine.cycle t
        next.fault? = none
        ∧ IsLeast {c | c ∈ codes ∧ Keypad.IsKey c} (next.machine.registers.get x)
        ∧ next.machine.pc.toNat = m.pc.toNat + 2
        ∧ ∀ r, r ≠ x → next.machine.registers.get r = m.registers.get r := by
  have hwaits : m.Waits x := ⟨hm, Keypad.eq_none_of_isEmpty hup⟩
  obtain ⟨hfaults, hrun⟩ := hwaits.run hl
  refine ⟨hfaults, fun n => (hwaits.run fun a ha => hl a (List.mem_of_mem_take ha)).2, ?_⟩
  intro codes t hcodes next
  obtain ⟨key, hkey, hleast⟩ := exists_first?_ofCodes hcodes
  have hp : ((m.run l).setKeys codes).machine.peek = .ok (.awaitKey x) := by
    rw [hrun]
    exact hm
  have hnext : next.machine = _ := machine_cycle_of_first? t hp hkey
  have hlast : ((m.run l).setKeys codes).machine
      = { m with
          timers := m.timers.updates (times l)
          keypad := .ofCodes codes } := by
    rw [hrun]
    rfl
  rw [hnext, hlast]
  refine ⟨?_, ?_, toNat_pc_add_two hm, ?_⟩
  · rw [fault?_cycle_of_peek t hp, fault?_execute]
  · rwa [Registers.get_set_self]
  · exact fun r hr => Registers.get_set_of_ne _ _ hr

/-- Two codes of no key in the wait, and one among the keys that end it. -/
theorem key_wait_of_stray_codes :
    let m := loaded [0xF3, 0x0A] (.ofSeed 0) 0
    let l := [.cycle 5, .setKeys [0x10, 0xFF], .cycle 20000000, .setKeys [], .cycle 3]
    let codes := [0x20, 0xC, 7, 9]
    let next := ((m.run l).setKeys codes).machine.cycle 40000000
    (m.Reachable ∧ m.peek = .ok (.awaitKey 3) ∧ m.keypad.isEmpty ∧ (∀ a ∈ l, a.Silent)
      ∧ ∃ c ∈ codes, Keypad.IsKey c)
    ∧ m.run (l.take 4) = { m with timers := ⟨0, 0, 20000000⟩ }
    ∧ (next.fault? = none ∧ next.machine.pc.toNat = 0x202)
    ∧ next.machine.registers.get 3 = 7
    ∧ next.machine.registers.get 4 = 0 := by
  intro m l codes next
  have hm : m.peek = .ok (.awaitKey 3) :=
    peek_of_program [0xF3, 0x0A] 0 rfl rfl (by decide) rfl rfl rfl
  have hup : m.keypad.isEmpty := rfl
  have hl : ∀ a ∈ l, a.Silent := by
    have hlow : ¬ Keypad.IsKey 0x10 := by decide
    have hhigh : ¬ Keypad.IsKey 0xFF := by decide
    simp [l, Action.Silent, hlow, hhigh]
  have hcodes : ∃ c ∈ codes, Keypad.IsKey c := ⟨7, by decide, by decide⟩
  obtain ⟨-, hrun, hkey⟩ := key_wait hm hup hl
  obtain ⟨hfault, hleast, hpc, hothers⟩ := hkey codes 40000000 hcodes
  -- what the last cycle leads to is known by these facts alone
  have hnext : next = ((m.run l).setKeys codes).machine.cycle 40000000 := rfl
  clear_value next
  rw [← hnext] at hfault hleast hpc hothers
  refine ⟨⟨.loaded _ _ (by decide), hm, hup, hl, hcodes⟩, hrun 4, ⟨hfault, hpc⟩, ?_,
    hothers 4 (by decide)⟩
  have hseven : IsLeast {c | c ∈ codes ∧ Keypad.IsKey c} (7 : UInt8) := by
    refine ⟨⟨by decide, by decide⟩, ?_⟩
    rintro c ⟨hc, -⟩
    simp only [codes, List.mem_cons, List.not_mem_nil, or_false] at hc
    rcases hc with rfl | rfl | rfl | rfl <;> decide
  exact UInt8.le_antisymm (hleast.2 hseven.1) (hseven.2 hleast.1)

end Machine

end Chip8

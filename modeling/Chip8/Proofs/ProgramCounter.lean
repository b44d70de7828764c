import Chip8.Proofs.Calls

/-!
# Where a cycle goes on

`Machine.nextPc` is the program counter after an instruction, in numbers:
nothing in it wraps. A return goes to the address that the latest call
which has not returned yet left behind, and `Machine.pendingReturns` finds
these addresses in the cycles of a run, without a look at the stack. That
the stack holds just these is an induction over the run
(`toList_stack_run`).
-/

namespace Chip8

namespace Condition

/-- What the condition says of the registers and of the keys that are down. -/
def Met (m : Machine) : Condition → Prop
  | byteEq x nn => m.registers.get x = nn
  | byteNe x nn => m.registers.get x ≠ nn
  | registerEq x y => m.registers.get x = m.registers.get y
  | registerNe x y => m.registers.get x ≠ m.registers.get y
  | keyDown x => Keypad.IsKey (m.registers.get x) ∧ m.registers.get x ∈ m.keypad.toList
  | keyUp x => ¬ (Keypad.IsKey (m.registers.get x) ∧ m.registers.get x ∈ m.keypad.toList)

/-- The condition on the same operands that asks for the contrary. -/
def opposite : Condition → Condition
  | byteEq x nn => byteNe x nn
  | byteNe x nn => byteEq x nn
  | registerEq x y => registerNe x y
  | registerNe x y => registerEq x y
  | keyDown x => keyUp x
  | keyUp x => keyDown x

theorem holds_iff (m : Machine) (c : Condition) : c.holds m = true ↔ c.Met m := by
  have hkey {v : UInt8} :
      m.keypad.isDown v = true ↔ Keypad.IsKey v ∧ v ∈ m.keypad.toList := by
    rw [Keypad.mem_toList]
    exact ⟨fun h => ⟨Keypad.isKey_of_isDown h, h⟩, fun h => h.2⟩
  cases c with
  | keyDown x => exact hkey
  | keyUp x => rw [holds, Met, ← hkey, Bool.not_eq_true', Bool.not_eq_true]
  | _ => simp [holds, Met]

instance (m : Machine) (c : Condition) : Decidable (c.Met m) :=
  decidable_of_iff _ (c.holds_iff m)

theorem met_opposite_iff (m : Machine) (c : Condition) : c.opposite.Met m ↔ ¬ c.Met m := by
  cases c <;> simp [opposite, Met]

end Condition

/-- What an instruction before `next` makes of the return addresses of the
calls that have not returned, of which the latest is the last. A call that
fails adds none. -/
def Instruction.pending (next : Address) (fault? : Option Fault) (returns : List Address) :
    Instruction → List Address
  | call _ => if fault? = none then returns ++ [next] else returns
  | ret => returns.dropLast
  | _ => returns

namespace Machine

/-! ## One instruction -/

theorem execute_awaitKey_of_none {m : Machine} {x : Register} (h : m.keypad.first? = none) :
    (m.execute (.awaitKey x)).machine = { m with pc := m.pc - 2 } := by
  simp only [execute, h]
  rfl

theorem execute_awaitKey_of_some {m : Machine} {x : Register} {key : UInt8}
    (h : m.keypad.first? = some key) :
    (m.execute (.awaitKey x)).machine = { m with registers := m.registers.set x key } := by
  simp only [execute, h]
  rfl

theorem pc_execute_skip (m : Machine) (c : Condition) :
    (m.stepOver.execute (.skip c)).machine.pc = if c.Met m then m.pc + 4 else m.pc + 2 := by
  have hholds : c.holds m.stepOver = true ↔ c.Met m := c.holds_iff m.stepOver
  have hfour : m.pc + 2 + 2 = m.pc + 4 := by rw [UInt16.add_assoc]; rfl
  simp only [execute, hholds, Outcome.machine_quiet]
  split
  · exact hfour
  · rfl

/-- A skip at the program counter passes over the instruction after it. -/
def Skips (m : Machine) (c : Condition) : Prop :=
  (m.stepOver.execute (.skip c)).machine.pc = m.pc + 4

theorem skips_iff {m : Machine} {c : Condition} : m.Skips c ↔ c.Met m := by
  have hne : m.pc + 2 ≠ m.pc + 4 := by simp
  rw [Skips, pc_execute_skip]
  split <;> simp [*]

/-! ## Calls that have not returned -/

/-- What the actions of a run make of them. -/
def pendingReturns (m : Machine) (returns : List Address) : List Action → List Address
  | [] => returns
  | a :: l =>
    let returns := match m.performed? a with
      | some i => i.pending (m.pc + 2) (m.act a).fault? returns
      | none => returns
    (m.act a).machine.pendingReturns returns l

theorem toList_stack_execute (m : Machine) (i : Instruction) :
    (m.execute i).machine.stack.toList
      = i.pending m.pc (m.execute i).fault? m.stack.toList := by
  cases i with
  | call target =>
      cases hs : m.stack.push m.pc with
      | ok s =>
          simp only [execute, hs]
          exact CallStack.toList_push hs
      | error f =>
          simp only [execute, hs]
          rfl
  | ret =>
      cases hs : m.stack.pop? with
      | none =>
          have hempty : m.stack.toList = [] := CallStack.pop?_eq_none_iff.mp hs
          simp only [execute, hs]
          show m.stack.toList = m.stack.toList.dropLast
          rw [hempty, List.dropLast_nil]
      | some r =>
          rw [execute_ret_of_pop? hs, CallStack.toList_of_pop? hs]
          exact List.dropLast_concat.symm
  | _ => exact congrArg CallStack.toList (execute_agreeOn (p := .stack) _ id)

theorem toList_stack_act (m : Machine) (a : Action) :
    (m.act a).machine.stack.toList
      = match m.performed? a with
        | some i => i.pending (m.pc + 2) (m.act a).fault? m.stack.toList
        | none => m.stack.toList := by
  cases hi : m.performed? a with
  | none =>
      have hs := m.act_agreeOn (p := .stack) a trivial fun i hp => by
        rw [hi] at hp
        cases hp
      exact congrArg CallStack.toList hs
  | some i =>
      obtain ⟨⟨t, rfl⟩, hp⟩ := performed?_eq_some_iff.mp hi
      rw [act, machine_cycle_of_peek t hp, fault?_cycle_of_peek t hp]
      exact toList_stack_execute _ i

theorem toList_stack_run (m : Machine) (l : List Action) :
    (m.run l).stack.toList = m.pendingReturns m.stack.toList l := by
  induction l generalizing m with
  | nil => rfl
  | cons a l ih => rw [run_cons, ih, toList_stack_act, pendingReturns]

/-! ## The program counter -/

/-- Where the machine goes on after an instruction that does not fail. -/
def nextPc (m : Machine) (returns : List Address) : Instruction → Nat
  | .jump target | .call target => target.toNat
  | .jumpOffset base => base.toNat + (m.registers.get .first).toNat
  | .ret => (returns.getLast?.map UInt16.toNat).getD (m.pc.toNat + 2)
  | .awaitKey _ => if m.keypad.toList = [] then m.pc.toNat else m.pc.toNat + 2
  | .skip c => if c.Met m then m.pc.toNat + 4 else m.pc.toNat + 2
  | _ => m.pc.toNat + 2

theorem toNat_pc_execute {m : Machine} {i : Instruction} (hpc : m.pc.toNat ≤ 0xFFE)
    (hi : i.WellFormed) (hf : (m.stepOver.execute i).fault? = none) :
    (m.stepOver.execute i).machine.pc.toNat = m.nextPc m.stack.toList i := by
  have hstep : m.stepOver.pc.toNat = m.pc.toNat + 2 := toNat_pc_stepOver (by omega)
  cases i with
  | jump target => rfl
  | call target =>
      cases hs : m.stepOver.stack.push m.stepOver.pc with
      | ok s =>
          rw [execute_call_of_push hs]
          rfl
      | error f =>
          simp only [execute, hs] at hf
          cases hf
  | ret =>
      show _ = (m.stack.toList.getLast?.map UInt16.toNat).getD (m.pc.toNat + 2)
      cases hs : m.stepOver.stack.pop? with
      | none =>
          have hempty : m.stack.toList = [] := CallStack.pop?_eq_none_iff.mp hs
          simp only [execute, hs, hempty]
          exact hstep
      | some r =>
          have hlist : m.stack.toList = r.2.toList ++ [r.1] := CallStack.toList_of_pop? hs
          rw [execute_ret_of_pop? hs, hlist, List.getLast?_concat]
          rfl
  | skip c =>
      show _ = if c.Met m then m.pc.toNat + 4 else m.pc.toNat + 2
      rw [pc_execute_skip]
      split
      · have hfour : (m.pc + 4).toNat = (m.pc.toNat + 4) % 65536 := UInt16.toNat_add _ _
        omega
      · exact hstep
  | jumpOffset base =>
      have hb : base.toNat < 4096 := hi
      have hv := (m.registers.get .first).toNat_lt
      show (base + (m.registers.get .first).toUInt16).toNat = _
      rw [UInt16.toNat_add, UInt8.toNat_toUInt16]
      exact Nat.mod_eq_of_lt (by omega)
  | awaitKey x =>
      show _ = if m.keypad.toList = [] then m.pc.toNat else m.pc.toNat + 2
      cases hk : m.stepOver.keypad.first? with
      | none =>
          have hback : m.pc + 2 - 2 = m.pc := UInt16.add_sub_cancel ..
          have hup : m.keypad.toList = [] := Keypad.toList_eq_nil_iff.mpr hk
          rw [execute_awaitKey_of_none hk, if_pos hup]
          exact congrArg UInt16.toNat hback
      | some key =>
          have hdown : m.keypad.toList ≠ [] := by
            intro h
            cases hk.symm.trans (Keypad.toList_eq_nil_iff.mp h)
          rw [execute_awaitKey_of_some hk, if_neg hdown]
          exact hstep
  | _ => exact hstep

/-- **Where a cycle goes on.** After a cycle that succeeds the program
counter is where its instruction says, by what the machine holds before
the cycle: a return goes on behind the latest call that has not returned
yet. It is never taken modulo anything. And of a skip and the one that
asks for the contrary of the same operands, just one skips. -/
theorem pc_after_cycle {program : List UInt8} {random : Generator} {created : Time} {m : Machine}
    (hm : load program random created = .ok m) (l : List Action) (t : Time) :
    let n := m.run l
    ((n.cycle t).fault? = none →
      ∃ i, n.peek = .ok i
        ∧ (n.cycle t).machine.pc.toNat = n.nextPc (m.pendingReturns [] l) i)
    ∧ ∀ (s : Machine) (c : Condition), s.Skips c.opposite ↔ ¬ s.Skips c := by
  intro n
  refine ⟨?_, ?_⟩
  · intro hf
    rcases n.cycle_cases t with ⟨-, hc⟩ | ⟨-, -, hc⟩ | ⟨i, hi, -⟩
    · rw [hc] at hf
      cases hf
    · rw [hc] at hf
      cases hf
    · obtain ⟨-, rfl⟩ := load_eq_ok_iff.mp hm
      have hstack : n.stack.toList = _ := toList_stack_run (loaded program random created) l
      have hpc := (peek_eq_ok_iff.mp hi).1
      refine ⟨i, hi, ?_⟩
      rw [fault?_cycle_of_peek t hi] at hf
      rw [machine_cycle_of_peek t hi, ← CallStack.toList_empty]
      exact hstack ▸ toNat_pc_execute (m := n.tick t) hpc (wellFormed_of_peek hi) hf
  · intro s c
    rw [skips_iff, skips_iff]
    exact c.met_opposite_iff s

/-- A call to `0x206`, and the return that is there. -/
private def calledReturn : List UInt8 := [0x22, 0x06, 0x00, 0x00, 0x00, 0x00, 0x00, 0xEE]

theorem pc_after_cycle_of_return :
    let m := loaded calledReturn (.ofSeed 0) 0
    let n := m.run [.cycle 0]
    (load calledReturn (.ofSeed 0) 0 = .ok m ∧ (n.cycle 1).fault? = none)
    ∧ n.peek = .ok .ret
    ∧ m.pendingReturns [] [.cycle 0] = [0x202]
    ∧ (n.cycle 1).machine.pc.toNat = 0x202
    ∧ ¬ n.Skips (.registerNe 3 3) := by
  intro m n
  have hload : load calledReturn (.ofSeed 0) 0 = .ok m := load_eq_ok_iff.mpr ⟨by decide, rfl⟩
  have hpeek {m' : Machine} := @peek_of_program m' calledReturn
  have hcall : m.peek = .ok (.call 0x206) := hpeek 0 rfl rfl (by decide) rfl rfl rfl
  let called : Machine :=
    { m with pc := 0x206, stack := ⟨CallStack.empty.slots.set 0 0x202, 1, by decide⟩ }
  have hact : (m.act (.cycle 0)).machine = called := machine_cycle_call 0 hcall rfl
  have hn : n = called := run_cons_of_act hact
  have hret : n.peek = .ok .ret := by
    rw [hn]
    exact hpeek 6 rfl rfl (by decide) rfl rfl rfl
  have hfault : (n.cycle 1).fault? = none := by rw [fault?_cycle_of_peek 1 hret, fault?_execute]
  have hpending : m.pendingReturns [] [.cycle 0] = [0x202] := by
    rw [← CallStack.toList_empty]
    exact (toList_stack_run m _).symm.trans (congrArg (·.stack.toList) hn)
  obtain ⟨hgoes, hskips⟩ := pc_after_cycle hload [.cycle 0] 1
  obtain ⟨i, hi, hpc⟩ := hgoes hfault
  obtain rfl : Instruction.ret = i := Except.ok.inj (hret.symm.trans hi)
  rw [hpending] at hpc
  exact ⟨⟨hload, hfault⟩, hret, hpending, hpc,
    (hskips n (.registerEq 3 3)).not.mpr (not_not_intro (skips_iff.mpr rfl))⟩

end Machine

end Chip8

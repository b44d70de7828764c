import Mathlib.Data.List.Forall2
import Chip8.Proofs.Cycle

/-!
# Runs

`Machine.Reachable` is every machine that a program can come to once it
is loaded, through any cycles and key changes and past any failures.
`Machine.executed` lists the instructions of a run in order, so that a run
without a kind of instruction can be spoken of; `Machine.cycled` lists the
machines that its cycles start from, and `Machine.faults` what each of its
actions returned.

`run_lockstep` is the one induction over two runs side by side: a relation
that every action preserves holds of the machines after the runs, and the
runs return the same.
-/

namespace Chip8

/-! ## Loading -/

namespace Memory

theorem load_cases (m : Memory) (program : List UInt8) :
    (program.length = 0 ∧ m.load program = .error .emptyProgram)
    ∨ (3584 < program.length
      ∧ m.load program = .error (.programTooLarge program.length 3584))
    ∨ ((0 < program.length ∧ program.length ≤ 3584)
      ∧ m.load program = .ok ⟨place m.bytes 0x200 program⟩) := by
  have hc : programCapacity = 3584 := rfl
  have hs : programStart.toNat = 0x200 := rfl
  cases program with
  | nil => exact Or.inl ⟨rfl, rfl⟩
  | cons b l =>
      rcases Nat.lt_or_ge 3584 (l.length + 1) with h | h
      · exact Or.inr (Or.inl ⟨h, by simp [load, hc, h]⟩)
      · have hlt : ¬ 3584 < l.length + 1 := Nat.not_lt.mpr h
        exact Or.inr (Or.inr ⟨⟨Nat.succ_pos _, h⟩, by simp [load, hc, hs, hlt]⟩)

theorem load_eq_ok_iff {m m' : Memory} {program : List UInt8} :
    m.load program = .ok m' ↔
      (0 < program.length ∧ program.length ≤ 3584)
        ∧ m' = ⟨place m.bytes 0x200 program⟩ := by
  rcases m.load_cases program with ⟨h, hl⟩ | ⟨h, hl⟩ | ⟨h, hl⟩
  · simp [hl, h]
  · simp [hl, Nat.not_le.mpr h]
  · simp [hl, h, eq_comm]

theorem load_eq_error_iff {m : Memory} {program : List UInt8} {f : Fault} :
    m.load program = .error f ↔
      (program.length = 0 ∧ f = .emptyProgram)
        ∨ 3584 < program.length ∧ f = .programTooLarge program.length 3584 := by
  rcases m.load_cases program with ⟨h, hl⟩ | ⟨h, hl⟩ | ⟨h, hl⟩
  · simp [hl, h, eq_comm]
  · have hne : program.length ≠ 0 := by omega
    simp [hl, h, hne, eq_comm]
  · have hne : program.length ≠ 0 := Nat.ne_of_gt h.1
    simp [hl, hne, Nat.not_lt.mpr h.2]

end Memory

namespace Machine

/-- The machine with a program in its place. -/
def loaded (program : List UInt8) (random : Generator) (created : Time) : Machine :=
  { initial random created with memory := ⟨Memory.place Memory.initial.bytes 0x200 program⟩ }

theorem load_eq_ok_iff {program : List UInt8} {random : Generator} {created : Time} {m : Machine} :
    load program random created = .ok m ↔
      (0 < program.length ∧ program.length ≤ 3584) ∧ m = loaded program random created := by
  rcases Memory.initial.load_cases program with ⟨h, hl⟩ | ⟨h, hl⟩ | ⟨h, hl⟩
  · simp [load, hl, h]
  · simp [load, hl, Nat.not_le.mpr h]
  · simp [load, loaded, hl, h, eq_comm]

/-! ## Reachable machines -/

/-- The machines that a loaded program can come to. -/
inductive Reachable : Machine → Prop where
  | load {program : List UInt8} {random : Generator} {created : Time} {m : Machine} :
      load program random created = .ok m → Reachable m
  | act {m : Machine} (a : Action) : Reachable m → Reachable (m.act a).machine

theorem Reachable.loaded {program : List UInt8} (random : Generator) (created : Time)
    (h : 0 < program.length ∧ program.length ≤ 3584) :
    (loaded program random created).Reachable :=
  .load (load_eq_ok_iff.mpr ⟨h, rfl⟩)

theorem Reachable.run {m : Machine} (h : m.Reachable) (l : List Action) :
    (m.run l).Reachable := by
  induction l generalizing m with
  | nil => exact h
  | cons a l ih => exact ih (h.act a)

theorem reachable_iff {m : Machine} :
    m.Reachable ↔ ∃ program random created m₀ l,
      load program random created = .ok m₀ ∧ m = m₀.run l := by
  constructor
  · intro h
    induction h with
    | load hl => exact ⟨_, _, _, _, [], hl, rfl⟩
    | act a _ ih =>
        obtain ⟨program, random, created, m₀, l, hl, rfl⟩ := ih
        exact ⟨program, random, created, m₀, l ++ [a], hl, by simp [run_append]⟩
  · rintro ⟨program, random, created, m₀, l, hl, rfl⟩
    exact (Reachable.load hl).run l

theorem run_cons_of_act {m m' : Machine} {a : Action} {l : List Action}
    (h : (m.act a).machine = m') : m.run (a :: l) = m'.run l := by
  rw [run_cons, h]

/-! ## The instructions of a run -/

/-- The instruction that an action executes. -/
def performed? (m : Machine) : Action → Option Instruction
  | .cycle _ => m.peek.toOption
  | .setKeys _ => none

/-- The instructions that a sequence of actions executes, in order. -/
def executed (m : Machine) : List Action → List Instruction
  | [] => []
  | a :: rest => (m.performed? a).toList ++ (m.act a).machine.executed rest

theorem performed?_eq_some_iff {m : Machine} {a : Action} {i : Instruction} :
    m.performed? a = some i ↔ (∃ t, a = .cycle t) ∧ m.peek = .ok i := by
  cases a with
  | cycle t => cases h : m.peek <;> simp [performed?, h, Except.toOption]
  | setKeys codes => simp [performed?]

theorem executed_cycle_cons {m : Machine} {i : Instruction} (t : Time) (l : List Action)
    (h : m.peek = .ok i) : m.executed (.cycle t :: l) = i :: (m.cycle t).machine.executed l := by
  simp [executed, performed?, h, Except.toOption, act]

theorem executed_setKeys_cons (m : Machine) (codes : List UInt8) (l : List Action) :
    m.executed (.setKeys codes :: l) = (m.setKeys codes).machine.executed l := rfl

theorem executed_append (m : Machine) (l₁ l₂ : List Action) :
    m.executed (l₁ ++ l₂) = m.executed l₁ ++ (m.run l₁).executed l₂ := by
  induction l₁ generalizing m with
  | nil => rfl
  | cons a l ih => simp [executed, ih]

theorem mem_executed_cons {m : Machine} {a : Action} {l : List Action} {i : Instruction} :
    i ∈ m.executed (a :: l) ↔ m.performed? a = some i ∨ i ∈ (m.act a).machine.executed l := by
  simp [executed, eq_comm]

/-- The machines that the cycles of a run start from, in order. -/
def cycled (m : Machine) : List Action → List Machine
  | [] => []
  | .cycle t :: rest => m :: (m.cycle t).machine.cycled rest
  | .setKeys codes :: rest => (m.setKeys codes).machine.cycled rest

theorem cycled_append (m : Machine) (l₁ l₂ : List Action) :
    m.cycled (l₁ ++ l₂) = m.cycled l₁ ++ (m.run l₁).cycled l₂ := by
  induction l₁ generalizing m with
  | nil => rfl
  | cons a l ih =>
      cases a with
      | cycle t => exact congrArg (m :: ·) (ih (m.cycle t).machine)
      | setKeys codes => exact ih (m.setKeys codes).machine

/-- A cycle starts from where the actions before it led. -/
theorem exists_of_mem_cycled {m n : Machine} {l : List Action} (h : n ∈ m.cycled l) :
    ∃ k t, l[k]? = some (.cycle t) ∧ n = m.run (l.take k) := by
  induction l generalizing m with
  | nil => cases h
  | cons a l ih =>
      cases a with
      | cycle t =>
          rcases List.mem_cons.mp h with rfl | h
          · exact ⟨0, t, rfl, rfl⟩
          · obtain ⟨k, t', hk, rfl⟩ := ih h
            exact ⟨k + 1, t', hk, rfl⟩
      | setKeys codes =>
          obtain ⟨k, t', hk, rfl⟩ := ih h
          exact ⟨k + 1, t', hk, rfl⟩

theorem mem_executed_iff {m : Machine} {l : List Action} {i : Instruction} :
    i ∈ m.executed l ↔ ∃ n ∈ m.cycled l, n.peek = .ok i := by
  induction l generalizing m with
  | nil => simp [executed, cycled]
  | cons a l ih =>
      rw [mem_executed_cons, ih, performed?_eq_some_iff]
      cases a with
      | cycle t => simp [cycled, act]
      | setKeys codes => simp [cycled, act]

/-! ## Two runs side by side -/

/-- What each action of a run returned: nothing, or the fault it failed with. -/
def faults (m : Machine) : List Action → List (Option Fault)
  | [] => []
  | a :: rest => (m.act a).fault? :: (m.act a).machine.faults rest

theorem faults_append (m : Machine) (l₁ l₂ : List Action) :
    m.faults (l₁ ++ l₂) = m.faults l₁ ++ (m.run l₁).faults l₂ := by
  induction l₁ generalizing m with
  | nil => rfl
  | cons a l ih => simp [faults, ih]

theorem getElem?_faults (m : Machine) (l : List Action) (k : Nat) :
    (m.faults l)[k]? = l[k]?.map fun a => ((m.run (l.take k)).act a).fault? := by
  induction l generalizing m k with
  | nil => rfl
  | cons a l ih =>
      cases k with
      | zero => rfl
      | succ k => exact ih (m.act a).machine k

section Lockstep

variable {R : Machine → Machine → Prop} {Q : Action → Action → Prop} {P : Machine → Prop}

/-- Two machines that are about to do the same do it in the same cycle: a
relation that ticking, stepping over and executing keep holds after it. -/
theorem cycle_lockstep {m m' : Machine} {t t' : Time} (hpc : m.pc = m'.pc)
    (hword : m.pc.toNat ≤ 0xFFE → m.word = m'.word) (htick : R (m.tick t) (m'.tick t'))
    (hstep : R (m.tick t).stepOver (m'.tick t').stepOver)
    (hexecute : ∀ i, m.peek = .ok i →
      ((m.tick t).stepOver.execute i).fault? = ((m'.tick t').stepOver.execute i).fault?
        ∧ R ((m.tick t).stepOver.execute i).machine ((m'.tick t').stepOver.execute i).machine) :
    (m.cycle t).fault? = (m'.cycle t').fault? ∧ R (m.cycle t).machine (m'.cycle t').machine := by
  rcases m.cycle_cases t with ⟨hlt, hc⟩ | ⟨hle, hw, hc⟩ | ⟨i, hi, hc⟩
  · rw [hc, cycle_of_lt t' (hpc ▸ hlt), hpc]
    exact ⟨rfl, htick⟩
  · rw [hc, cycle_of_decode?_eq_none t' (hpc ▸ hle) (hword hle ▸ hw), hword hle]
    exact ⟨rfl, hstep⟩
  · obtain ⟨hle, hw⟩ := peek_eq_ok_iff.mp hi
    have hi' : m'.peek = .ok i := peek_eq_ok_iff.mpr ⟨hpc ▸ hle, hword hle ▸ hw⟩
    rw [hc, cycle_of_peek t' hi']
    exact hexecute i hi

/-- Two runs with related actions keep a relation between their machines
that every pair of related actions keeps. `P` is what is asked of the
machines that the cycles of the first run start from. -/
theorem run_lockstep
    (hstep : ∀ {m m' a a'}, R m m' → Q a a' → ((∃ t, a = .cycle t) → P m) →
      (m.act a).fault? = (m'.act a').fault? ∧ R (m.act a).machine (m'.act a').machine)
    {m m' : Machine} {l l' : List Action} (hl : List.Forall₂ Q l l') (h : R m m')
    (hp : ∀ n ∈ m.cycled l, P n) :
    m.faults l = m'.faults l' ∧ R (m.run l) (m'.run l') := by
  induction hl generalizing m m' with
  | nil => exact ⟨rfl, h⟩
  | @cons a a' l l' ha hl ih =>
      have hhead : (∃ t, a = .cycle t) → P m := by
        rintro ⟨t, rfl⟩
        exact hp m (List.mem_cons_self ..)
      have htail : ∀ n ∈ (m.act a).machine.cycled l, P n := by
        intro n hn
        refine hp n ?_
        cases a with
        | cycle t => exact List.mem_cons_of_mem _ hn
        | setKeys codes => exact hn
      obtain ⟨hfault, hnext⟩ := hstep h ha hhead
      obtain ⟨hfaults, hlast⟩ := ih hnext htail
      exact ⟨List.cons_eq_cons.mpr ⟨hfault, hfaults⟩, hlast⟩

end Lockstep

end Machine

end Chip8

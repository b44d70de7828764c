import Chip8.Proofs.Frame
import Chip8.Proofs.StraightLine

/-!
# The random bytes of a run

A seed fixes a sequence of words, and the machine keeps how many of them it
has drawn. A random instruction draws one, whatever its mask, and nothing
else does (`random_act`); so after a run as many words are gone as random
instructions were executed (`random_run`), and the next one gets the word
of that number. What the words are is never looked at.
-/

namespace Chip8

/-- The generator after a number of draws. -/
def Generator.skip (g : Generator) (count : Nat) : Generator :=
  { g with position := g.position + count }

theorem Generator.skip_skip (g : Generator) (j k : Nat) : (g.skip j).skip k = g.skip (j + k) := by
  simp [skip, Nat.add_assoc]

namespace Instruction

def isRandom : Instruction → Bool
  | random .. => true
  | _ => false

end Instruction

namespace Machine

/-- How many random instructions a run executes. -/
def draws (m : Machine) (l : List Action) : Nat := (m.executed l).countP (·.isRandom)

theorem draws_cons (m : Machine) (a : Action) (l : List Action) :
    m.draws (a :: l) = m.draws [a] + (m.act a).machine.draws l := by
  simp [draws, executed]

theorem draws_singleton {m : Machine} {a : Action} {x : Register} {mask : UInt8}
    (h : m.performed? a = some (.random x mask)) : m.draws [a] = 1 := by
  simp [draws, executed, h, Instruction.isRandom]

theorem draws_eq_zero {m : Machine} {a : Action}
    (h : ∀ x mask, m.performed? a ≠ some (.random x mask)) : m.draws [a] = 0 := by
  cases hi : m.performed? a with
  | none => simp [draws, executed, hi]
  | some i =>
      cases i with
      | random x mask => exact absurd hi (h x mask)
      | _ => simp [draws, executed, hi, Instruction.isRandom]

theorem random_act (m : Machine) (a : Action) :
    (m.act a).machine.random = m.random.skip (m.draws [a]) := by
  by_cases h : ∃ x mask, m.performed? a = some (.random x mask)
  · obtain ⟨x, mask, hi⟩ := h
    obtain ⟨⟨t, rfl⟩, hp⟩ := performed?_eq_some_iff.mp hi
    rw [draws_singleton hi, act, machine_cycle_of_peek t hp]
    rfl
  · push Not at h
    rw [draws_eq_zero h]
    refine m.act_agreeOn (p := .random) a trivial ?_
    intro i hi hw
    cases i with
    | random x mask => exact h x mask hi
    | _ => exact hw

theorem random_run (m : Machine) (l : List Action) :
    (m.run l).random = m.random.skip (m.draws l) := by
  induction l generalizing m with
  | nil => rfl
  | cons a l ih => rw [run_cons, ih, random_act, Generator.skip_skip, ← draws_cons]

/-- **Random bytes over a run.** After any run of a program that was loaded
with a seed, the machine has drawn one word for each random instruction
executed. The next one puts the low byte of the next word under its mask
into its register; whatever else happens, failures included, draws none. -/
theorem random_of_run {program : List UInt8} {seed : UInt64} {created : Time} {m : Machine}
    (hm : load program (.ofSeed seed) created = .ok m) (l : List Action) :
    let n := m.run l
    let w := ChaCha.stream (Seed.key seed)
    n.random = ⟨Seed.key seed, m.draws l⟩
    ∧ (∀ t x mask, n.peek = .ok (.random x mask) →
        (n.cycle t).fault? = none
        ∧ (n.cycle t).machine.registers
            = n.registers.set x ((w (m.draws l)).toUInt8 &&& mask)
        ∧ (n.cycle t).machine.random.position = m.draws l + 1)
    ∧ (∀ a, (∀ x mask, n.performed? a ≠ some (.random x mask)) →
        (n.act a).machine.random = n.random)
    ∧ ∀ a f, (n.act a).fault? = some f → (n.act a).machine.random = n.random := by
  intro n w
  obtain ⟨-, rfl⟩ := load_eq_ok_iff.mp hm
  have hrandom : n.random = ⟨Seed.key seed, (loaded program (.ofSeed seed) created).draws l⟩ := by
    rw [random_run]
    exact congrArg (Generator.mk _) (Nat.zero_add _)
  have hkeep : ∀ a, (∀ x mask, n.performed? a ≠ some (.random x mask)) →
      (n.act a).machine.random = n.random := by
    intro a h
    rw [random_act, draws_eq_zero h]
    rfl
  refine ⟨hrandom, ?_, hkeep, ?_⟩
  · intro t x mask hx
    refine ⟨?_, ?_, ?_⟩
    · rw [fault?_cycle_of_peek t hx]
      rfl
    · rw [machine_cycle_of_peek t hx]
      show n.registers.set x (n.random.byte &&& mask) = _
      rw [hrandom]
      rfl
    · rw [machine_cycle_of_peek t hx]
      show n.random.position + 1 = _
      rw [hrandom]
  · intro a f hf
    refine hkeep a ?_
    intro x mask hx
    obtain ⟨⟨t, rfl⟩, hp⟩ := performed?_eq_some_iff.mp hx
    rw [act, fault?_cycle_of_peek t hp] at hf
    cases hf

/-- The first of its two random instructions keeps nothing of its word. -/
private def diceSchedule : Schedule :=
  [(0, .random .first 0), (20000000, .setByte .first 9), (5, .random .flag 0x3F)]

theorem random_of_dice :
    let m := loaded diceSchedule.image (.ofSeed 7) 0
    let n := after diceSchedule (.ofSeed 7) 0 2
    let w := ChaCha.stream (Seed.key 7)
    (load diceSchedule.image (.ofSeed 7) 0 = .ok m
      ∧ n.peek = .ok (.random .flag 0x3F)
      ∧ n.performed? (.setKeys [3]) = none)
    ∧ n.random = ⟨Seed.key 7, 1⟩
    ∧ (n.cycle 5).machine.registers.get .flag = (w 1).toUInt8 &&& 0x3F
    ∧ (n.act (.setKeys [3])).machine.random = n.random := by
  intro m n w
  have hl : ∀ s ∈ diceSchedule, s.2.WellFormed ∧ s.2.Straight := by decide
  have hstores : ∀ s ∈ diceSchedule, s.2.stores = 0 := by decide
  have harrived : ∀ k ≤ 2, Arrived diceSchedule (.ofSeed 7) 0 k := fun k hk =>
    arrived_of_never_stores (by decide) hl hstores (Nat.le_succ_of_le hk)
  have hload : load diceSchedule.image (.ofSeed 7) 0 = .ok m := load_eq_ok_iff.mpr ⟨by decide, rfl⟩
  have hpeek : n.peek = .ok (.random .flag 0x3F) :=
    (harrived 2 (Nat.le_refl _)).peek (t := 5) (by decide) rfl trivial
  have hrun : m.run (Schedule.cycles (diceSchedule.take 2)) = n := rfl
  have hexecuted : m.executed (Schedule.cycles (diceSchedule.take 2))
      = [.random .first 0, .setByte .first 9] :=
    executed_of_arrived (by decide) (fun s hs => (hl s hs).1) (by decide) fun j hj =>
      harrived j (Nat.le_of_lt hj)
  have hdraws : m.draws (Schedule.cycles (diceSchedule.take 2)) = 1 := by
    rw [draws, hexecuted]
    rfl
  obtain ⟨hrandom, hnext, hkeep, -⟩ :=
    random_of_run hload (Schedule.cycles (diceSchedule.take 2))
  rw [hrun, hdraws] at hrandom hnext
  rw [hrun] at hkeep
  obtain ⟨-, hregisters, -⟩ := hnext 5 .flag 0x3F hpeek
  refine ⟨⟨hload, hpeek, rfl⟩, hrandom, ?_, hkeep _ (by rintro _ _ ⟨⟩)⟩
  rw [hregisters]
  exact Registers.get_set_self ..

end Machine

end Chip8

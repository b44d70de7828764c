import Mathlib.Data.List.DropRight
import Chip8.Proofs.Faults
import Chip8.Proofs.Frame
import Chip8.Proofs.StraightLine

/-!
# The countdowns of a run

Both countdowns can be read off the cycles that were run
(`Machine.moments`). A countdown holds what was last written into it, less
one for every tick since and never less than zero; and whether a cycle
ticks is decided by its time and the time of the latest cycle that did, or
that of the machine's creation if none has.

`Accounts` says so of the timers after some cycles. One more cycle keeps it
(`Accounts.cycle`), whether it fails or not: the clock is first, and an
instruction that writes a countdown forgets what came before.
-/

namespace Chip8

inductive Countdown where
  | delay
  | sound
deriving Repr, DecidableEq

def Countdown.part : Countdown → Part
  | delay => .delay
  | sound => .sound

namespace Timers

def value (timers : Timers) : Countdown → UInt8
  | .delay => timers.delay
  | .sound => timers.sound

theorem due_iff {timers : Timers} {t : Time} :
    timers.Due t ↔ timers.lastTick + interval < t := Nat.lt_sub_iff_add_lt'

theorem lastTick_update (timers : Timers) (t : Time) :
    (timers.update t).lastTick = if timers.Due t then t else timers.lastTick := by
  unfold update
  split <;> rfl

theorem toNat_value_update (timers : Timers) (t : Time) (k : Countdown) :
    ((timers.update t).value k).toNat
      = (timers.value k).toNat - if timers.Due t then 1 else 0 := by
  unfold update
  split
  · cases k <;> exact toNat_countDown _
  · rfl

end Timers

namespace Machine

/-! ## The cycles of a run -/

/-- A cycle of a run: the machine that it starts from, and its time. -/
structure Moment where
  start : Machine
  time : Time

/-- The cycles of a run, in order, those that fail included. -/
def moments (m : Machine) : List Action → List Moment
  | [] => []
  | .cycle t :: rest => ⟨m, t⟩ :: (m.cycle t).machine.moments rest
  | .setKeys codes :: rest => (m.setKeys codes).machine.moments rest

namespace Moment

/-- The clock takes one off both countdowns. -/
def Ticks (c : Moment) : Prop := c.start.timers.Due c.time

instance : DecidablePred Ticks := fun c => by
  unfold Ticks
  infer_instance

/-- What the instruction of the cycle writes into a countdown. -/
def written? (c : Moment) (k : Countdown) : Option UInt8 :=
  match c.start.peek, k with
  | .ok (.setDelay x), .delay | .ok (.setSound x), .sound => some (c.start.registers.get x)
  | _, _ => none

end Moment

/-- What was last written into a countdown; before any write it is zero. -/
def lastWritten (k : Countdown) (h : List Moment) : UInt8 :=
  (h.filterMap (·.written? k)).getLastD 0

/-- How many cycles ticked after the last that wrote into a countdown. -/
def ticksSince (k : Countdown) (h : List Moment) : Nat :=
  (h.rtakeWhile (·.written? k = none)).countP (·.Ticks)

/-- The time of the last cycle that ticked; before any tick it is that of
the creation. -/
def latestTick (created : Time) (h : List Moment) : Time :=
  ((h.filter (·.Ticks)).map Moment.time).getLastD created

section Concat

variable {k : Countdown} {created : Time} {h : List Moment} {c : Moment}

theorem lastWritten_concat :
    lastWritten k (h ++ [c]) = (c.written? k).getD (lastWritten k h) := by
  cases hc : c.written? k <;> simp [lastWritten, hc]

theorem ticksSince_concat_of_some {b : UInt8} (hc : c.written? k = some b) :
    ticksSince k (h ++ [c]) = 0 := by
  rw [ticksSince, List.rtakeWhile_concat_neg _ _ _ (by simp [hc]), List.countP_nil]

theorem ticksSince_concat_of_none (hc : c.written? k = none) :
    ticksSince k (h ++ [c]) = ticksSince k h + if c.Ticks then 1 else 0 := by
  rw [ticksSince, List.rtakeWhile_concat_pos _ _ _ (by simp [hc]), List.countP_append,
    List.countP_singleton]
  simp [ticksSince]

theorem latestTick_concat :
    latestTick created (h ++ [c]) = if c.Ticks then c.time else latestTick created h := by
  by_cases hc : c.Ticks <;> simp [latestTick, hc]

end Concat

/-! ## One cycle -/

theorem written?_eq_none_iff {m : Machine} {t : Time} {k : Countdown} {i : Instruction}
    (hi : m.peek = .ok i) : (Moment.mk m t).written? k = none ↔ ¬ i.Writes k.part := by
  simp only [Moment.written?, hi]
  have hsome : ∀ b : UInt8, ¬ some b = none := by rintro b ⟨⟩
  cases i with
  | setDelay x =>
      cases k with
      | delay => exact iff_of_false (hsome _) (not_not_intro trivial)
      | sound => exact iff_of_true rfl id
  | setSound x =>
      cases k with
      | delay => exact iff_of_true rfl id
      | sound => exact iff_of_false (hsome _) (not_not_intro trivial)
  | _ => cases k <;> exact iff_of_true rfl id

theorem value_cycle_of_none {m : Machine} {t : Time} {k : Countdown}
    (h : (Moment.mk m t).written? k = none) :
    (m.cycle t).machine.timers.value k = (m.timers.update t).value k := by
  have hp := m.cycle_agreeOn t fun i hi => (written?_eq_none_iff hi).mp h
  cases k <;> exact hp

theorem value_cycle_of_some {m : Machine} {t : Time} {k : Countdown} {b : UInt8}
    (h : (Moment.mk m t).written? k = some b) : (m.cycle t).machine.timers.value k = b := by
  unfold Moment.written? at h
  split at h
  case h_3 => cases h
  all_goals
    rename_i x hp
    rw [machine_cycle_of_peek t hp]
    exact Option.some.inj h

/-! ## A run -/

/-- The timers are what the cycles since their creation have made of them. -/
structure Accounts (timers : Timers) (created : Time) (h : List Moment) : Prop where
  value : ∀ k, (timers.value k).toNat = (lastWritten k h).toNat - ticksSince k h
  lastTick : timers.lastTick = latestTick created h

theorem Accounts.cycle {m : Machine} {created : Time} {h : List Moment}
    (ha : Accounts m.timers created h) (t : Time) :
    Accounts (m.cycle t).machine.timers created (h ++ [⟨m, t⟩]) := by
  constructor
  · intro k
    rw [lastWritten_concat]
    cases hc : (Moment.mk m t).written? k with
    | some b =>
        rw [value_cycle_of_some hc, ticksSince_concat_of_some hc]
        rfl
    | none =>
        rw [value_cycle_of_none hc, Timers.toNat_value_update, ha.value k,
          ticksSince_concat_of_none hc, Nat.sub_sub]
        rfl
  · rw [lastTick_cycle, Timers.lastTick_update, ha.lastTick, latestTick_concat]
    rfl

theorem Accounts.run {m : Machine} {created : Time} {h : List Moment}
    (ha : Accounts m.timers created h) (l : List Action) :
    Accounts (m.run l).timers created (h ++ m.moments l) := by
  induction l generalizing m h with
  | nil =>
      rw [moments, List.append_nil]
      exact ha
  | cons a l ih =>
      cases a with
      | cycle t =>
          rw [moments, List.append_cons]
          exact ih (ha.cycle t)
      | setKeys codes => exact ih (m := (m.setKeys codes).machine) ha

theorem accounts_of_load {program : List UInt8} {random : Generator} {created : Time}
    {m : Machine} (hm : load program random created = .ok m) (l : List Action) :
    Accounts (m.run l).timers created (m.moments l) := by
  obtain ⟨-, rfl⟩ := load_eq_ok_iff.mp hm
  have hstart : Accounts (loaded program random created).timers created [] :=
    ⟨fun k => by cases k <;> rfl, rfl⟩
  exact hstart.run l

/-- **Countdowns over a run.** After any run of a loaded program, each
countdown holds what was last written into it less the ticks since, and
the next cycle ticks if its time is past that of the latest tick, or of the
creation, by more than the interval. That cycle takes off at most one, ticks just so if it
fails, and reads the delay as the tick has left it. -/
theorem countdowns_of_run {program : List UInt8} {random : Generator} {created : Time}
    {m : Machine} (hm : load program random created = .ok m) (l : List Action) (t : Time) :
    let n := m.run l
    let h := m.moments l
    let c : Moment := ⟨n, t⟩
    (∀ k, (n.timers.value k).toNat = (lastWritten k h).toNat - ticksSince k h)
    ∧ (c.Ticks ↔ latestTick created h + Timers.interval < t)
    ∧ (∀ k, c.written? k = none →
        ((n.cycle t).machine.timers.value k).toNat
          = (n.timers.value k).toNat - if c.Ticks then 1 else 0)
    ∧ (∀ f, (n.cycle t).fault? = some f → (n.cycle t).machine.timers = n.timers.update t)
    ∧ ∀ x, n.peek = .ok (.readDelay x) →
        (n.cycle t).machine.registers.get x = (n.timers.update t).delay := by
  intro n h c
  have ha : Accounts n.timers created h := accounts_of_load hm l
  refine ⟨ha.value, ?_, ?_, ?_, ?_⟩
  · rw [← ha.lastTick]
    exact Timers.due_iff
  · intro k hk
    rw [value_cycle_of_none hk, Timers.toNat_value_update]
    rfl
  · intro f hf
    rw [machine_of_fault hf]
  · intro x hx
    rw [machine_cycle_of_peek t hx]
    exact Registers.get_set_self ..

/-- Sets the delay and reads it one tick later. -/
private def delaySchedule : Schedule :=
  [(0, .setByte .first 5), (20000000, .setDelay .first), (40000000, .readDelay .flag)]

/-- Counted from the creation, the second cycle comes too early for a tick.
Behind the program there is no instruction, and the cycle that finds none
ticks as well. -/
theorem countdowns_of_delay :
    let m := loaded delaySchedule.image (.ofSeed 0) 5000000
    let n₂ := after delaySchedule (.ofSeed 0) 5000000 2
    let n₃ := after delaySchedule (.ofSeed 0) 5000000 3
    (load delaySchedule.image (.ofSeed 0) 5000000 = .ok m
      ∧ n₂.peek = .ok (.readDelay .flag)
      ∧ (Moment.mk n₂ 40000000).written? .delay = none
      ∧ (n₃.cycle 60000000).fault? = some (.unknownInstruction 0))
    ∧ (n₂.cycle 40000000).machine.registers.get .flag = 4
    ∧ ((n₂.cycle 40000000).machine.timers.value .delay).toNat = 4
    ∧ (n₃.cycle 60000000).machine.timers = ⟨3, 0, 60000000⟩ := by
  intro m n₂ n₃
  have hl : ∀ s ∈ delaySchedule, s.2.WellFormed ∧ s.2.Straight := by decide
  have hstores : ∀ s ∈ delaySchedule, s.2.stores = 0 := by decide
  have harrived : ∀ k ≤ 3, Arrived delaySchedule (.ofSeed 0) 5000000 k := fun k =>
    arrived_of_never_stores (by decide) hl hstores
  have hn₂ : n₂ = _ := (harrived 2 (by decide)).eq_perform
  have hn₃ : n₃ = _ := (harrived 3 (by decide)).eq_perform
  have hload : load delaySchedule.image (.ofSeed 0) 5000000 = .ok m :=
    load_eq_ok_iff.mpr ⟨by decide, rfl⟩
  have hpeek : n₂.peek = .ok (.readDelay .flag) :=
    (harrived 2 (by decide)).peek (t := 40000000) (by decide) rfl trivial
  have hwritten : (Moment.mk n₂ 40000000).written? .delay = none :=
    (written?_eq_none_iff hpeek).mpr id
  have htimers₂ : n₂.timers = ⟨5, 0, 5000000⟩ := congrArg timers hn₂
  have htimers₃ : n₃.timers = ⟨4, 0, 40000000⟩ := congrArg timers hn₃
  have hfault : (n₃.cycle 60000000).fault? = some (.unknownInstruction 0) := by
    have hpc : n₃.pc = 0x206 := congrArg pc hn₃
    have hmemory : n₃.memory = m.memory := (congrArg memory hn₃).trans rfl
    have hword : n₃.word = 0 := by
      rw [word, hmemory, hpc, read_loaded_of_le (by decide) (by decide),
        read_loaded_of_le (by decide) (by decide)]
      rfl
    refine fault?_eq_unknownInstruction_iff.mpr ⟨by rw [hpc]; decide, hword.symm, ?_⟩
    exact Instruction.decode?_eq_none_iff.mp (by decide)
  have hrun₂ : m.run (Schedule.cycles (delaySchedule.take 2)) = n₂ := rfl
  have hrun₃ : m.run (Schedule.cycles (delaySchedule.take 3)) = n₃ := rfl
  obtain ⟨-, -, hvalue, -, hread⟩ :=
    countdowns_of_run hload (Schedule.cycles (delaySchedule.take 2)) 40000000
  obtain ⟨-, -, -, hfail, -⟩ :=
    countdowns_of_run hload (Schedule.cycles (delaySchedule.take 3)) 60000000
  rw [hrun₂, htimers₂] at hread hvalue
  rw [hrun₃, htimers₃] at hfail
  refine ⟨⟨hload, hpeek, hwritten, hfault⟩, hread .flag hpeek, ?_, hfail _ hfault⟩
  have hticks : (Moment.mk n₂ 40000000).Ticks := by
    show n₂.timers.Due _
    rw [htimers₂]
    decide
  rw [hvalue .delay hwritten, if_pos hticks]
  rfl

end Machine

end Chip8

import Chip8.Proofs.StraightLine

/-!
# What reaches a machine from outside

A machine learns of the outside through three channels: the times of its
creation and its cycles, the keys that are set, and the generator that it
was loaded with. Each feeds one part of the machine, and
`Instruction.DependsOn` names the few instructions that look at that part.
Until one of them is executed, two runs that differ only in what one channel
brought do the same (`SameBut.run`): they return the same, and their
machines differ at most in the part that the channel feeds.

The creation belongs to the clock as much as the cycles do. Two machines
that were created apart tick apart, even if their cycles have the same
times.
-/

namespace Chip8

inductive Channel where
  | clock
  | keys
  | seed
deriving Repr, DecidableEq

/-- What the instruction does depends on what the channel brought. A random
byte under an empty mask is zero and depends on nothing. -/
def Instruction.DependsOn : Instruction → Channel → Prop
  | readDelay _, .clock => True
  | skip (.keyDown _), .keys | skip (.keyUp _), .keys | awaitKey _, .keys => True
  | random _ mask, .seed => mask ≠ 0
  | _, _ => False

namespace Machine

/-- Two actions of one kind that differ at most in what the channel brings. -/
def Action.SameBut (c : Channel) : Action → Action → Prop
  | .cycle t, .cycle t' => c = .clock ∨ t = t'
  | .setKeys codes, .setKeys codes' => c = .keys ∨ codes = codes'
  | _, _ => False

/-- Two machines that differ at most in the part that the channel feeds. -/
def SameBut (m m' : Machine) : Channel → Prop
  | .clock => m' = { m with timers := m'.timers }
  | .keys => m' = { m with keypad := m'.keypad }
  | .seed => m' = { m with random := m'.random }

/-! ## One instruction -/

section Execute

variable (m : Machine) {i : Instruction}

theorem execute_withTimers (timers : Timers) (hi : ¬ i.DependsOn .clock) :
    ∃ timers', ({ m with timers := timers }.execute i).machine
      = { (m.execute i).machine with timers := timers' } := by
  cases i with
  | readDelay x => exact absurd trivial hi
  | setDelay x => exact ⟨{ timers with delay := m.registers.get x }, rfl⟩
  | setSound x => exact ⟨{ timers with sound := m.registers.get x }, rfl⟩
  | skip condition =>
      have hc : condition.holds { m with timers := timers } = condition.holds m := by
        cases condition <;> rfl
      refine ⟨timers, ?_⟩
      simp only [execute, hc]
      split <;> rfl
  | ret | call _ | awaitKey _ =>
      refine ⟨timers, ?_⟩
      simp only [execute]
      split <;> rfl
  | _ => exact ⟨timers, rfl⟩

theorem execute_withKeypad (keypad : Keypad) (hi : ¬ i.DependsOn .keys) :
    ({ m with keypad := keypad }.execute i).machine
      = { (m.execute i).machine with keypad := keypad } := by
  cases i with
  | awaitKey x => exact absurd trivial hi
  | skip condition =>
      have hc : condition.holds { m with keypad := keypad } = condition.holds m := by
        cases condition with
        | keyDown _ | keyUp _ => exact absurd trivial hi
        | _ => rfl
      simp only [execute, hc]
      split <;> rfl
  | ret | call _ =>
      simp only [execute]
      split <;> rfl
  | _ => rfl

theorem execute_withRandom (random : Generator) (hi : ¬ i.DependsOn .seed) :
    ∃ random', ({ m with random := random }.execute i).machine
      = { (m.execute i).machine with random := random' } := by
  cases i with
  | random x mask =>
      obtain rfl : mask = 0 := Decidable.not_not.mp hi
      refine ⟨random.advance, ?_⟩
      simp only [execute, Outcome.machine_quiet, UInt8.and_zero]
  | skip condition =>
      have hc : condition.holds { m with random := random } = condition.holds m := by
        cases condition <;> rfl
      refine ⟨random, ?_⟩
      simp only [execute, hc]
      split <;> rfl
  | ret | call _ | awaitKey _ =>
      refine ⟨random, ?_⟩
      simp only [execute]
      split <;> rfl
  | _ => exact ⟨random, rfl⟩

end Execute

namespace SameBut

variable {m m' : Machine} {c : Channel} (h : m.SameBut m' c)
include h

theorem pc : m.pc = m'.pc := by
  cases c <;> rw [h]

theorem memory : m.memory = m'.memory := by
  cases c <;> rw [h]

theorem registers : m.registers = m'.registers := by
  cases c <;> rw [h]

theorem stack : m.stack = m'.stack := by
  cases c <;> rw [h]

theorem stepOver : m.stepOver.SameBut m'.stepOver c := by
  cases c <;> rw [h] <;> rfl

theorem execute {i : Instruction} (hi : ¬ i.DependsOn c) :
    (m.execute i).fault? = (m'.execute i).fault?
      ∧ (m.execute i).machine.SameBut (m'.execute i).machine c := by
  refine ⟨?_, ?_⟩
  · rw [fault?_execute, fault?_execute, h.pc, h.stack]
  cases c with
  | clock =>
      obtain ⟨timers, he⟩ := m.execute_withTimers m'.timers hi
      rw [h, he]
      rfl
  | keys =>
      rw [h, m.execute_withKeypad m'.keypad hi]
      rfl
  | seed =>
      obtain ⟨random, he⟩ := m.execute_withRandom m'.random hi
      rw [h, he]
      rfl

/-! ## One action -/

theorem tick {t t' : Time} (ht : c = .clock ∨ t = t') : (m.tick t).SameBut (m'.tick t') c := by
  cases c with
  | clock =>
      rw [h]
      rfl
  | keys | seed =>
      obtain rfl := ht.resolve_left (by rintro ⟨⟩)
      rw [h]
      rfl

theorem cycle {t t' : Time} (ht : c = .clock ∨ t = t')
    (hi : ∀ i, m.peek = .ok i → ¬ i.DependsOn c) :
    (m.cycle t).fault? = (m'.cycle t').fault?
      ∧ (m.cycle t).machine.SameBut (m'.cycle t').machine c := by
  have hword : m.word = m'.word := by
    rw [word, word, h.memory, h.pc]
  exact cycle_lockstep (R := fun m m' => m.SameBut m' c) h.pc (fun _ => hword) (h.tick ht)
    (h.tick ht).stepOver fun i hp => (h.tick ht).stepOver.execute (hi i hp)

theorem act {a a' : Action} (ha : Action.SameBut c a a')
    (hi : (∃ t, a = .cycle t) → ∀ i, m.peek = .ok i → ¬ i.DependsOn c) :
    (m.act a).fault? = (m'.act a').fault?
      ∧ (m.act a).machine.SameBut (m'.act a').machine c := by
  cases a with
  | cycle t => cases a' with
    | cycle t' => exact h.cycle ha (hi ⟨t, rfl⟩)
    | setKeys codes => exact ha.elim
  | setKeys codes => cases a' with
    | cycle t => exact ha.elim
    | setKeys codes' =>
        refine ⟨rfl, ?_⟩
        cases c with
        | keys =>
            rw [h]
            rfl
        | clock | seed =>
            obtain rfl := ha.resolve_left (by rintro ⟨⟩)
            rw [h]
            rfl

/-! ## Whole runs -/

/-- What a channel brought makes no difference to a run that executes no
instruction that depends on it. -/
theorem run {l l' : List Action} (hl : List.Forall₂ (Action.SameBut c) l l')
    (hi : ∀ i ∈ m.executed l, ¬ i.DependsOn c) :
    m.faults l = m'.faults l' ∧ (m.run l).SameBut (m'.run l') c := by
  refine run_lockstep (R := fun m m' => m.SameBut m' c)
    (P := fun n => ∀ i, n.peek = .ok i → ¬ i.DependsOn c) ?_ hl h ?_
  · intro m m' a a' h ha hp
    exact SameBut.act h ha hp
  · intro n hn i hp
    exact hi i (mem_executed_iff.mpr ⟨n, hn, hp⟩)

end SameBut

/-- Two machines with one program, but for what the channel brings when a
machine is created. -/
theorem sameBut_loaded (program : List UInt8) {random random' : Generator}
    {created created' : Time} {c : Channel} (hcreated : c = .clock ∨ created = created')
    (hrandom : c = .seed ∨ random = random') :
    (loaded program random created).SameBut (loaded program random' created') c := by
  cases c with
  | clock =>
      obtain rfl := hrandom.resolve_left (by rintro ⟨⟩)
      rfl
  | keys =>
      obtain rfl := hcreated.resolve_left (by rintro ⟨⟩)
      obtain rfl := hrandom.resolve_left (by rintro ⟨⟩)
      rfl
  | seed =>
      obtain rfl := hcreated.resolve_left (by rintro ⟨⟩)
      rfl

/-- **Clock, keys and seed act through their own instructions only.** Load
one program twice and do the same with both machines, but for what one
channel brings: creation and cycles may have other times only if it is the
clock, and the generator may be another only if it is the seed. For as long
as the first has executed no instruction that depends on the channel, both
return the same, and the machines differ at most in the timers, the keypad
or the generator, whichever the channel feeds. -/
theorem sameBut_run_of_load {program : List UInt8} {random random' : Generator}
    {created created' : Time} {m m' : Machine} {c : Channel} {l l' : List Action} {k : Nat}
    (hm : load program random created = .ok m) (hm' : load program random' created' = .ok m')
    (hcreated : c = .clock ∨ created = created') (hrandom : c = .seed ∨ random = random')
    (hl : List.Forall₂ (Action.SameBut c) l l')
    (hi : ∀ i ∈ m.executed (l.take k), ¬ i.DependsOn c) :
    m.faults (l.take k) = m'.faults (l'.take k)
      ∧ (m.run (l.take k)).SameBut (m'.run (l'.take k)) c := by
  obtain ⟨-, rfl⟩ := load_eq_ok_iff.mp hm
  obtain ⟨-, rfl⟩ := load_eq_ok_iff.mp hm'
  exact (sameBut_loaded program hcreated hrandom).run (List.forall₂_take k hl) hi

/-- Sets the delay timer and draws a random byte under an empty mask. -/
private def deafProgram : List UInt8 := [0x60, 0x05, 0xF0, 0x15, 0xC1, 0x00]

/-- One run and three others, each of which differs from it in all that one
channel brings. -/
theorem sameBut_run_of_deafProgram :
    let m := loaded deafProgram (.ofSeed 1) 0
    let younger := loaded deafProgram (.ofSeed 1) 50000000
    let m' := loaded deafProgram (.ofSeed 2) 0
    let l := [.cycle 0, .setKeys [3], .cycle 20000000, .cycle 1]
    let early := [.cycle 99999999, .setKeys [3], .cycle 0, .cycle 40000000]
    let pressed := [.cycle 0, .setKeys [7, 200], .cycle 20000000, .cycle 1]
    (load deafProgram (.ofSeed 1) 0 = .ok m
      ∧ load deafProgram (.ofSeed 1) 50000000 = .ok younger
      ∧ load deafProgram (.ofSeed 2) 0 = .ok m'
      ∧ m.executed l = [.setByte 0 5, .setDelay 0, .random 1 0])
    ∧ (m.run l).SameBut (younger.run early) .clock
    ∧ (m.run l).SameBut (m.run pressed) .keys
    ∧ (m.run l).SameBut (m'.run l) .seed := by
  intro m younger m' l early pressed
  have hm : load deafProgram (.ofSeed 1) 0 = .ok m := load_eq_ok_iff.mpr ⟨by decide, rfl⟩
  have hyounger : load deafProgram (.ofSeed 1) 50000000 = .ok younger :=
    load_eq_ok_iff.mpr ⟨by decide, rfl⟩
  have hm' : load deafProgram (.ofSeed 2) 0 = .ok m' := load_eq_ok_iff.mpr ⟨by decide, rfl⟩
  have hpeek {n : Machine} := @peek_of_program n deafProgram
  have he : m.executed l = [.setByte 0 5, .setDelay 0, .random 1 0] := by
    have hset {n : Machine} (h : n.peek = .ok (.setByte 0 5)) : (n.cycle 0).machine
        = { (n.tick 0).stepOver with registers := n.registers.set 0 5 } :=
      machine_cycle_of_peek 0 h
    have hdelay {n : Machine} (h : n.peek = .ok (.setDelay 0)) : (n.cycle 20000000).machine
        = { (n.tick 20000000).stepOver with
            timers := { n.timers.update 20000000 with delay := n.registers.get 0 } } :=
      machine_cycle_of_peek 20000000 h
    let m₁ : Machine := { (m.tick 0).stepOver with registers := m.registers.set 0 5 }
    let m₂ : Machine := { m₁ with keypad := .ofCodes [3] }
    let m₃ : Machine :=
      { (m₂.tick 20000000).stepOver with
        timers := { m₂.timers.update 20000000 with delay := m₂.registers.get 0 } }
    have h₁ : m.peek = .ok (.setByte 0 5) := hpeek 0 rfl rfl (by decide) rfl rfl rfl
    have h₂ : m₂.peek = .ok (.setDelay 0) := hpeek 2 rfl rfl (by decide) rfl rfl rfl
    have h₃ : m₃.peek = .ok (.random 1 0) := hpeek 4 rfl rfl (by decide) rfl rfl rfl
    have hm₁ : (m.cycle 0).machine = m₁ := hset h₁
    have hm₃ : (m₂.cycle 20000000).machine = m₃ := hdelay h₂
    have hkeys : (m₁.setKeys [3]).machine = m₂ := rfl
    rw [executed_cycle_cons 0 _ h₁, hm₁, executed_setKeys_cons, hkeys,
      executed_cycle_cons 20000000 _ h₂, hm₃, executed_cycle_cons 1 _ h₃]
    rfl
  have hi : ∀ c, ∀ i ∈ m.executed (l.take 4), ¬ i.DependsOn c := by
    intro c i hmem
    rw [show l.take 4 = l from rfl, he] at hmem
    simp only [List.mem_cons, List.not_mem_nil, or_false] at hmem
    rcases hmem with rfl | rfl | rfl <;> cases c <;> simp [Instruction.DependsOn]
  have hlearly : List.Forall₂ (Action.SameBut .clock) l early := by
    simp [l, early, Action.SameBut]
  have hlpressed : List.Forall₂ (Action.SameBut .keys) l pressed := by
    simp [l, pressed, Action.SameBut]
  have hlseed : List.Forall₂ (Action.SameBut .seed) l l := by
    simp [l, Action.SameBut]
  have hearly :=
    sameBut_run_of_load (k := 4) hm hyounger (Or.inl rfl) (Or.inr rfl) hlearly (hi .clock)
  have hpressed :=
    sameBut_run_of_load (k := 4) hm hm (Or.inr rfl) (Or.inr rfl) hlpressed (hi .keys)
  have hseed :=
    sameBut_run_of_load (k := 4) hm hm' (Or.inr rfl) (Or.inl rfl) hlseed (hi .seed)
  rw [show l.take 4 = l from rfl] at hearly hpressed hseed
  rw [show early.take 4 = early from rfl] at hearly
  rw [show pressed.take 4 = pressed from rfl] at hpressed
  exact ⟨⟨hm, hyounger, hm', he⟩, hearly.2, hpressed.2, hseed.2⟩

/-- Sets the delay and reads it as soon as a machine created at zero has
ticked. -/
private def tickingSchedule : Schedule :=
  [(1, .setByte .first 5), (2, .setDelay .first), (16666667, .readDelay .flag)]

private theorem arrived_tickingSchedule (random : Generator) (created : Time) {k : Nat}
    (hk : k ≤ 3) : Arrived tickingSchedule random created k :=
  arrived_of_never_stores (by decide) (by decide) (by decide) hk

/-- What the program reads, on a machine created at zero and on one created
a nanosecond later. -/
private theorem flag_run_tickingSchedule (random : Generator) (code : UInt8) :
    let l := tickingSchedule.cycles ++ [.setKeys [code]]
    ((loaded tickingSchedule.image random 0).run l).registers.get .flag = 4
      ∧ ((loaded tickingSchedule.image random 1).run l).registers.get .flag = 5 := by
  intro l
  have hrun : ∀ created, ((loaded tickingSchedule.image random created).run l).registers
      = ((loaded tickingSchedule.image random created).perform tickingSchedule).registers := by
    intro created
    have h : Arrived tickingSchedule random created tickingSchedule.length :=
      arrived_tickingSchedule random created (Nat.le_refl 3)
    have hperform := h.eq_perform
    rw [after, List.take_length] at hperform
    rw [run_append, hperform]
    rfl
  rw [hrun, hrun]
  -- the last cycle is the only one that can tick
  exact ⟨(rfl : (Timers.update ⟨5, 0, 0⟩ 16666667).delay = 4),
    (rfl : (Timers.update ⟨5, 0, 1⟩ 16666667).delay = 5)⟩

/-- The times of the cycles alone do not make two machines alike. Of two
that were created a nanosecond apart, one has ticked when it reads the delay
and the other has not, so they differ in a register as well, although no
instruction asks for a key or a random byte. -/
theorem not_sameBut_run_of_created_apart :
    let p := tickingSchedule.image
    let m := loaded p (.ofSeed 1) 0
    let younger := loaded p (.ofSeed 1) 1
    let reseeded := loaded p (.ofSeed 2) 1
    let l := tickingSchedule.cycles ++ [.setKeys [3]]
    let pressed := tickingSchedule.cycles ++ [.setKeys [7]]
    (load p (.ofSeed 1) 0 = .ok m ∧ load p (.ofSeed 1) 1 = .ok younger
      ∧ load p (.ofSeed 2) 1 = .ok reseeded
      ∧ m.executed l = [.setByte .first 5, .setDelay .first, .readDelay .flag])
    ∧ (List.Forall₂ (Action.SameBut .keys) l pressed
      ∧ (∀ i ∈ m.executed l, ¬ i.DependsOn .keys)
      ∧ ¬ (m.run l).SameBut (younger.run pressed) .keys)
    ∧ (List.Forall₂ (Action.SameBut .seed) l l
      ∧ (∀ i ∈ m.executed l, ¬ i.DependsOn .seed)
      ∧ ¬ (m.run l).SameBut (reseeded.run l) .seed)
    ∧ (m.run l).registers.get .flag = 4
    ∧ (younger.run pressed).registers.get .flag = 5
    ∧ (reseeded.run l).registers.get .flag = 5 := by
  intro p m younger reseeded l pressed
  have hm : load p (.ofSeed 1) 0 = .ok m := load_eq_ok_iff.mpr ⟨by decide, rfl⟩
  have hyounger : load p (.ofSeed 1) 1 = .ok younger := load_eq_ok_iff.mpr ⟨by decide, rfl⟩
  have hreseeded : load p (.ofSeed 2) 1 = .ok reseeded := load_eq_ok_iff.mpr ⟨by decide, rfl⟩
  have hl : ∀ s ∈ tickingSchedule, s.2.WellFormed := by decide
  have he : m.executed l = [.setByte .first 5, .setDelay .first, .readDelay .flag] := by
    have hcycles : m.executed tickingSchedule.cycles = tickingSchedule.map Prod.snd :=
      executed_of_arrived (by decide) hl (Nat.le_refl 3) fun j hj =>
        arrived_tickingSchedule _ _ (Nat.le_of_lt hj)
    rw [executed_append, hcycles]
    rfl
  have hi : ∀ c, c ≠ .clock → ∀ i ∈ m.executed l, ¬ i.DependsOn c := by
    intro c hc i hmem
    simp only [he, List.mem_cons, List.not_mem_nil, or_false] at hmem
    rcases hmem with rfl | rfl | rfl <;> cases c <;> simp [Instruction.DependsOn] at hc ⊢
  have hread : (m.run l).registers.get .flag = 4 := (flag_run_tickingSchedule _ 3).1
  have hread' : (younger.run pressed).registers.get .flag = 5 := (flag_run_tickingSchedule _ 7).2
  have hreread : (reseeded.run l).registers.get .flag = 5 := (flag_run_tickingSchedule _ 3).2
  have hkeys : List.Forall₂ (Action.SameBut .keys) l pressed := by
    simp [l, pressed, tickingSchedule, Schedule.cycles, Action.SameBut]
  have hseed : List.Forall₂ (Action.SameBut .seed) l l := by
    simp [l, tickingSchedule, Schedule.cycles, Action.SameBut]
  refine ⟨⟨hm, hyounger, hreseeded, he⟩, ⟨hkeys, hi _ (by decide), fun h => ?_⟩,
    ⟨hseed, hi _ (by decide), fun h => ?_⟩, hread, hread', hreread⟩
  · rw [h.registers, hread'] at hread
    exact absurd hread (by decide)
  · rw [h.registers, hreread] at hread
    exact absurd hread (by decide)

end Machine

end Chip8

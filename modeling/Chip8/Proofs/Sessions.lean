import Chip8.Console.Session
import Chip8.Proofs.Frame
import Chip8.Proofs.StraightLine

/-!
# Sessions are runs

A session does to its machine what a sequence of actions does that is known
beforehand (`Session.timetable`): for every frame one change of keys and a
fixed number of cycles. It follows them up to the first that fails
(`Machine.follow`), or to the frame in which it is told to quit.

`Tracks` says so of a session that was played for some frames, together
with how often its bell rang. A frame quits, halts or comes to its end, and
each has its lemma; one that came to its end goes before all that the
session does from there (`Tracks.frame`), so that the induction on the
frames is over all sessions whose bell knows about their sound.
-/

namespace Chip8

namespace Machine

/-! ## Up to the first failure -/

/-- How far a sequence of actions came. -/
structure Followed where
  machine : Machine
  /-- How many actions succeeded. -/
  completed : Nat
  halt? : Option Halt

/-- Runs actions up to the first that fails. -/
def follow (m : Machine) : List Action → Followed
  | [] => ⟨m, 0, none⟩
  | a :: rest =>
    match (m.act a).fault? with
    | some fault => ⟨(m.act a).machine, 0, some ⟨m.pc, fault⟩⟩
    | none =>
      let p := (m.act a).machine.follow rest
      { p with completed := p.completed + 1 }

section Follow

variable {m : Machine} {a : Action} {l l₁ l₂ : List Action}

theorem follow_cons_of_some {f : Fault} (h : (m.act a).fault? = some f) :
    m.follow (a :: l) = ⟨(m.act a).machine, 0, some ⟨m.pc, f⟩⟩ := by
  rw [follow, h]

theorem follow_cons_of_none (h : (m.act a).fault? = none) :
    m.follow (a :: l)
      = { (m.act a).machine.follow l with
          completed := ((m.act a).machine.follow l).completed + 1 } := by
  rw [follow, h]

/-- What fails does not see what would have come after it. -/
theorem follow_append (m : Machine) (l₁ l₂ : List Action) :
    m.follow (l₁ ++ l₂) = match (m.follow l₁).halt? with
      | some _ => m.follow l₁
      | none =>
        let p := (m.run l₁).follow l₂
        { p with completed := l₁.length + p.completed } := by
  induction l₁ generalizing m with
  | nil => simp [follow]
  | cons a l ih =>
      cases hf : (m.act a).fault? with
      | some f => rw [List.cons_append, follow_cons_of_some hf, follow_cons_of_some hf]
      | none =>
          rw [List.cons_append, follow_cons_of_none hf, follow_cons_of_none hf, ih]
          cases ((m.act a).machine.follow l).halt? with
          | some halt => rfl
          | none => simp [Nat.add_right_comm]

theorem follow_of_faults_eq_none (h : ∀ f ∈ m.faults l, f = none) :
    m.follow l = ⟨m.run l, l.length, none⟩ := by
  induction l generalizing m with
  | nil => rfl
  | cons a l ih =>
      obtain ⟨ha, hl⟩ := List.forall_mem_cons.mp h
      rw [follow_cons_of_none ha, ih hl]
      rfl

theorem follow_of_fault {k : Nat} {f : Fault} (hbefore : ∀ g ∈ m.faults (l.take k), g = none)
    (hk : (m.faults l)[k]? = some (some f)) :
    m.follow l = ⟨m.run (l.take (k + 1)), k, some ⟨(m.run (l.take k)).pc, f⟩⟩ := by
  induction l generalizing m k with
  | nil => cases hk
  | cons a l ih =>
      cases k with
      | zero =>
          have hf : (m.act a).fault? = some f := Option.some.inj hk
          rw [follow_cons_of_some hf]
          rfl
      | succ k =>
          obtain ⟨ha, hl⟩ := List.forall_mem_cons.mp hbefore
          rw [follow_cons_of_none ha, ih hl hk]
          rfl

theorem follow_cases (m : Machine) (l : List Action) :
    (∀ f ∈ m.faults l, f = none)
      ∨ ∃ k f, k < l.length ∧ (∀ g ∈ m.faults (l.take k), g = none)
          ∧ (m.faults l)[k]? = some (some f) := by
  induction l generalizing m with
  | nil => exact Or.inl fun f hf => absurd hf List.not_mem_nil
  | cons a l ih =>
      cases hf : (m.act a).fault? with
      | some f =>
          refine Or.inr ⟨0, f, Nat.succ_pos _, fun g hg => absurd hg List.not_mem_nil, ?_⟩
          exact congrArg some hf
      | none =>
          rcases ih (m.act a).machine with h | ⟨k, f, hk, hbefore, hfault⟩
          · exact Or.inl (List.forall_mem_cons.mpr ⟨hf, h⟩)
          · exact Or.inr ⟨k + 1, f, Nat.succ_lt_succ hk,
              List.forall_mem_cons.mpr ⟨hf, hbefore⟩, hfault⟩

theorem follow_of_halt?_eq_none (h : (m.follow l).halt? = none) :
    m.follow l = ⟨m.run l, l.length, none⟩ := by
  rcases m.follow_cases l with hnone | ⟨k, f, -, hbefore, hfault⟩
  · exact follow_of_faults_eq_none hnone
  · rw [follow_of_fault hbefore hfault] at h
    cases h

theorem completed_follow_lt {halt : Halt} (h : (m.follow l).halt? = some halt) :
    (m.follow l).completed < l.length := by
  rcases m.follow_cases l with hnone | ⟨k, f, hk, hbefore, hfault⟩
  · rw [follow_of_faults_eq_none hnone] at h
    cases h
  · rw [follow_of_fault hbefore hfault]
    exact hk

/-- Only a cycle fails. -/
theorem exists_cycle_of_fault {k : Nat} {f : Fault} (h : (m.faults l)[k]? = some (some f)) :
    ∃ t, l[k]? = some (.cycle t) := by
  rw [getElem?_faults, Option.map_eq_some_iff] at h
  obtain ⟨a, ha, hf⟩ := h
  cases a with
  | cycle t => exact ⟨t, ha⟩
  | setKeys codes => cases hf

end Follow

/-! ## Cycles on end -/

/-- Cycles at the times that a clock gives them. -/
def cycles (clock : Nat → Time) (count : Nat) : List Action :=
  (List.range count).map fun k => .cycle (clock k)

@[simp] theorem length_cycles (clock : Nat → Time) (count : Nat) :
    (cycles clock count).length = count := by
  simp [cycles]

theorem take_cycles (clock : Nat → Time) {k count : Nat} (h : k ≤ count) :
    (cycles clock count).take k = cycles clock k := by
  rw [cycles, ← List.map_take, List.take_range, Nat.min_eq_left h, cycles]

theorem exists_cycle_of_mem_cycles {clock : Nat → Time} {count : Nat} {a : Action}
    (h : a ∈ cycles clock count) : ∃ t, a = .cycle t := by
  obtain ⟨k, -, rfl⟩ := List.mem_map.mp h
  exact ⟨clock k, rfl⟩

theorem keypad_run_of_cycles {m : Machine} {l : List Action} (h : ∀ a ∈ l, ∃ t, a = .cycle t) :
    (m.run l).keypad = m.keypad := by
  induction l generalizing m with
  | nil => rfl
  | cons a l ih =>
      obtain ⟨⟨t, rfl⟩, hl⟩ := List.forall_mem_cons.mp h
      exact (ih hl).trans (m.keypad_cycle t)

theorem length_cycled_of_cycles {m : Machine} {l : List Action} (h : ∀ a ∈ l, ∃ t, a = .cycle t) :
    (m.cycled l).length = l.length := by
  induction l generalizing m with
  | nil => rfl
  | cons a l ih =>
      obtain ⟨⟨t, rfl⟩, hl⟩ := List.forall_mem_cons.mp h
      exact congrArg (· + 1) (ih hl)

theorem go_eq_follow (threshold : Severity) (clock : Nat → Time) (count : Nat) (m : Machine)
    (events : Array Event) (completed : Nat) :
    let p := advance.go threshold clock count m events completed
    let q := m.follow ((List.range' completed count).map fun k => .cycle (clock k))
    p.machine = q.machine ∧ p.halt? = q.halt? := by
  induction count generalizing m events completed with
  | zero => exact ⟨rfl, rfl⟩
  | succ count ih =>
      cases hf : (m.cycle (clock completed)).fault? with
      | some f =>
          rw [List.range'_succ, List.map_cons, follow_cons_of_some (a := .cycle _) hf]
          simp [advance.go, hf, act]
      | none =>
          rw [List.range'_succ, List.map_cons, follow_cons_of_none (a := .cycle _) hf]
          simp only [advance.go, hf]
          exact ih _ _ _

theorem advance_eq_follow (threshold : Severity) (clock : Nat → Time) (count : Nat)
    (m : Machine) :
    (m.advance threshold clock count).machine = (m.follow (cycles clock count)).machine
      ∧ (m.advance threshold clock count).halt? = (m.follow (cycles clock count)).halt? := by
  rw [cycles, List.range_eq_range']
  exact go_eq_follow threshold clock count m #[] 0

end Machine

namespace Session

open Machine (Action Halt)

/-! ## What a session does -/

/-- What a frame does in which these keys count as held. -/
def frameActions (perFrame : Nat) (held : HeldKeys) (i : Input) : List Action :=
  .setKeys held.toList :: Machine.cycles i.clock perFrame

/-- The keys that count as held when the keypad is set in the last of some frames. -/
def heldAfter (held : HeldKeys) (l : List Input) : HeldKeys :=
  l.foldl (fun held i => held.age.noteAll i.typed) held

/-- What frames do that are not told to quit. -/
def timetable (perFrame : Nat) (held : HeldKeys) : List Input → List Action
  | [] => []
  | i :: rest =>
    let held := held.age.noteAll i.typed
    frameActions perFrame held i ++ timetable perFrame held rest

/-- The frames before the first that is told to quit. -/
def untilQuit (l : List Input) : List Input := l.takeWhile fun i => ¬ Quits i.typed

/-- What a session does up to the first frame that is told to quit. -/
def actions (s : Session) (l : List Input) : List Action :=
  timetable s.settings.perFrame s.held (untilQuit l)

/-- The machine of a session at the end of its first `k` frames. -/
def after (s : Session) (l : List Input) (k : Nat) : Machine :=
  s.machine.run ((s.actions l).take (k * (s.settings.perFrame + 1)))

section Timetable

variable {perFrame : Nat} {held : HeldKeys}

@[simp] theorem length_frameActions (i : Input) :
    (frameActions perFrame held i).length = perFrame + 1 := by
  simp [frameActions]

/-- One more frame of actions, with the first frame's put in front. -/
theorem succ_mul_eq_length_add (i : Input) (k : Nat) :
    (k + 1) * (perFrame + 1) = (frameActions perFrame held i).length + k * (perFrame + 1) := by
  rw [length_frameActions, Nat.succ_mul, Nat.add_comm]

/-- Where the actions of a frame are. -/
theorem drop_timetable (perFrame : Nat) (held : HeldKeys) {l : List Input} {k : Nat} {i : Input}
    (h : l[k]? = some i) :
    ∃ rest, (timetable perFrame held l).drop (k * (perFrame + 1))
      = frameActions perFrame (heldAfter held (l.take (k + 1))) i ++ rest := by
  induction l generalizing held k with
  | nil => cases h
  | cons j l ih =>
      cases k with
      | zero =>
          obtain rfl : j = i := Option.some.inj h
          rw [Nat.zero_mul, List.drop_zero]
          exact ⟨_, rfl⟩
      | succ k =>
          obtain ⟨rest, hrest⟩ := ih (held.age.noteAll j.typed) h
          refine ⟨rest, ?_⟩
          rw [timetable, succ_mul_eq_length_add j, List.drop_length_add_append, hrest]
          rfl

theorem take_drop_timetable {l : List Input} {k : Nat} {i : Input} (h : l[k]? = some i) :
    ((timetable perFrame held l).drop (k * (perFrame + 1))).take (perFrame + 1)
      = frameActions perFrame (heldAfter held (l.take (k + 1))) i := by
  obtain ⟨rest, hrest⟩ := drop_timetable perFrame held h
  rw [hrest, List.take_append_of_le_length (by simp), List.take_of_length_le (by simp)]

/-- What a frame makes of the keypad stays until the next. -/
theorem keypad_in_frame (m : Machine) {l : List Input} {k c : Nat} {i : Input}
    (h : l[k]? = some i) (hc : c ≤ perFrame) :
    (m.run ((timetable perFrame held l).take (k * (perFrame + 1) + (c + 1)))).keypad
      = .ofCodes (heldAfter held (l.take (k + 1))).toList := by
  obtain ⟨rest, hrest⟩ := drop_timetable perFrame held h
  have hcycles : ∀ a ∈ (Machine.cycles i.clock perFrame ++ rest).take c, ∃ t, a = .cycle t := by
    intro a ha
    rw [List.take_append_of_le_length (by simpa using hc)] at ha
    exact Machine.exists_cycle_of_mem_cycles (List.mem_of_mem_take ha)
  rw [List.take_add, Machine.run_append, hrest]
  exact Machine.keypad_run_of_cycles hcycles

theorem length_cycled_timetable (m : Machine) (l : List Input) :
    (m.cycled (timetable perFrame held l)).length = l.length * perFrame := by
  induction l generalizing m held with
  | nil => simp [timetable, Machine.cycled]
  | cons i l ih =>
      have hcycles := Machine.length_cycled_of_cycles
        (m := (m.setKeys (held.age.noteAll i.typed).toList).machine)
        (l := Machine.cycles i.clock perFrame) fun a => Machine.exists_cycle_of_mem_cycles
      rw [Machine.length_cycles] at hcycles
      rw [timetable, Machine.cycled_append, List.length_append, ih, List.length_cons,
        Nat.succ_mul, Nat.add_comm]
      exact congrArg (_ + ·) hcycles

theorem length_timetable (l : List Input) :
    (timetable perFrame held l).length = l.length * (perFrame + 1) := by
  induction l generalizing held with
  | nil => simp [timetable]
  | cons i l ih => simp [timetable, ih, Nat.succ_mul, Nat.add_comm]

end Timetable

/-- What the session does in a frame. -/
def inFrame (s : Session) (i : Input) : List Action :=
  frameActions s.settings.perFrame (s.held.age.noteAll i.typed) i

/-- The session after a frame that comes to its end. -/
def next (s : Session) (i : Input) : Session where
  settings := s.settings
  machine := s.machine.run (s.inFrame i)
  held := s.held.age.noteAll i.typed
  bell := s.bell.hear (decide (0 < (s.machine.run (s.inFrame i)).timers.sound))

section Frame

variable {s : Session} {i : Input} {l : List Input}

@[simp] theorem length_inFrame (s : Session) (i : Input) :
    (s.inFrame i).length = s.settings.perFrame + 1 := length_frameActions i

theorem actions_cons_of_quits (h : Quits i.typed) : s.actions (i :: l) = [] := by
  simp [actions, untilQuit, timetable, h]

theorem actions_cons_of_not_quits (h : ¬ Quits i.typed) :
    s.actions (i :: l) = s.inFrame i ++ (s.next i).actions l := by
  simp only [actions, untilQuit, List.takeWhile_cons, h]
  rfl

@[simp] theorem after_zero (s : Session) (l : List Input) : s.after l 0 = s.machine := by
  simp [after]

theorem after_succ (h : ¬ Quits i.typed) (k : Nat) :
    s.after (i :: l) (k + 1) = (s.next i).after l k := by
  have hlen : (k + 1) * (s.settings.perFrame + 1)
      = (s.inFrame i).length + k * (s.settings.perFrame + 1) := succ_mul_eq_length_add i k
  rw [after, actions_cons_of_not_quits h, hlen, List.take_length_add_append, Machine.run_append]
  rfl

/-! ## One frame -/

theorem frame_of_quits (threshold : Severity) (h : Quits i.typed) :
    s.frame threshold i.clock i.typed
      = ⟨s, [.sessionQuit s.machine.pc], false, some .quit⟩ := if_pos h

theorem frame_of_not_quits (threshold : Severity) (h : ¬ Quits i.typed) :
    s.frame threshold i.clock i.typed
      = { (s.readKeys i.typed).1.runCycles threshold i.clock with
          events := (s.readKeys i.typed).2
            ++ ((s.readKeys i.typed).1.runCycles threshold i.clock).events } := if_neg h

theorem runCycles_of_some {threshold : Severity} {clock : Nat → Time} {halt : Halt}
    (h : (s.machine.advance threshold clock s.settings.perFrame).halt? = some halt) :
    let p := s.machine.advance threshold clock s.settings.perFrame
    s.runCycles threshold clock
      = ⟨{ s with machine := p.machine }, p.events.toList, false, some (.halted halt)⟩ := by
  rw [runCycles]
  simp only [h]

theorem runCycles_of_none {threshold : Severity} {clock : Nat → Time}
    (h : (s.machine.advance threshold clock s.settings.perFrame).halt? = none) :
    let p := s.machine.advance threshold clock s.settings.perFrame
    let sounding : Bool := 0 < p.machine.timers.sound
    s.runCycles threshold clock
      = ⟨{ s with machine := p.machine, bell := s.bell.hear sounding }, p.events.toList,
          s.bell.Rings sounding, none⟩ := by
  rw [runCycles]
  simp only [h]

theorem follow_inFrame (s : Session) (threshold : Severity) (i : Input) :
    let s' := (s.readKeys i.typed).1
    let p := s'.machine.advance threshold i.clock s'.settings.perFrame
    let q := s.machine.follow (s.inFrame i)
    p.machine = q.machine ∧ p.halt? = q.halt? :=
  Machine.advance_eq_follow threshold i.clock s.settings.perFrame _

theorem frame_of_halt {halt : Halt} (threshold : Severity) (h : ¬ Quits i.typed)
    (hq : (s.machine.follow (s.inFrame i)).halt? = some halt) :
    let f := s.frame threshold i.clock i.typed
    f.session.machine = (s.machine.follow (s.inFrame i)).machine
      ∧ f.session.bell = s.bell
      ∧ f.rang = false
      ∧ f.ending? = some (.halted halt) := by
  obtain ⟨hmachine, hhalt⟩ := s.follow_inFrame threshold i
  rw [frame_of_not_quits threshold h, runCycles_of_some (hhalt.trans hq)]
  exact ⟨hmachine, rfl, rfl, rfl⟩

theorem frame_of_none (threshold : Severity) (h : ¬ Quits i.typed)
    (hq : (s.machine.follow (s.inFrame i)).halt? = none) :
    let f := s.frame threshold i.clock i.typed
    f.session = s.next i
      ∧ f.rang = decide (s.bell.Rings (s.next i).bell.sounding)
      ∧ f.ending? = none := by
  obtain ⟨hmachine, hhalt⟩ := s.follow_inFrame threshold i
  rw [Machine.follow_of_halt?_eq_none hq] at hmachine
  rw [frame_of_not_quits threshold h, runCycles_of_none (hhalt.trans hq), hmachine]
  exact ⟨rfl, rfl, rfl⟩

theorem settings_runCycles (s : Session) (threshold : Severity) (clock : Nat → Time) :
    (s.runCycles threshold clock).session.settings = s.settings := by
  cases h : (s.machine.advance threshold clock s.settings.perFrame).halt? with
  | some halt => rw [runCycles_of_some h]
  | none => rw [runCycles_of_none h]

theorem settings_frame (s : Session) (threshold : Severity) (i : Input) :
    (s.frame threshold i.clock i.typed).session.settings = s.settings := by
  by_cases h : Quits i.typed
  · rw [frame_of_quits threshold h]
  · rw [frame_of_not_quits threshold h]
    exact settings_runCycles _ threshold i.clock

/-- Setting the keypad does not fail, so what a frame runs of its cycles is never none
of them, and it is all of them unless one fails. -/
theorem exists_cycles_frame (threshold : Severity) (h : ¬ Quits i.typed)
    (hpos : 0 < s.settings.perFrame) :
    let f := s.frame threshold i.clock i.typed
    ∃ count, 0 < count ∧ count ≤ s.settings.perFrame
      ∧ f.session.machine = s.machine.run (frameActions count (s.held.age.noteAll i.typed) i)
      ∧ (f.ending? = none → count = s.settings.perFrame) := by
  cases hq : (s.machine.follow (s.inFrame i)).halt? with
  | none =>
      obtain ⟨hsession, -, -⟩ := frame_of_none threshold h hq
      refine ⟨s.settings.perFrame, hpos, Nat.le_refl _, ?_, fun _ => rfl⟩
      rw [hsession]
      rfl
  | some halt =>
      obtain ⟨hmachine, -, -, hending⟩ := frame_of_halt threshold h hq
      rcases s.machine.follow_cases (s.inFrame i) with hnone | ⟨k, f, hk, hbefore, hfault⟩
      · rw [Machine.follow_of_faults_eq_none hnone] at hq
        cases hq
      · rw [length_inFrame] at hk
        have hle : k ≤ s.settings.perFrame := Nat.le_of_lt_succ hk
        obtain ⟨t, ht⟩ := Machine.exists_cycle_of_fault hfault
        refine ⟨k, ?_, hle, ?_, fun hnone => ?_⟩
        · cases k with
          | zero => cases ht
          | succ k => exact Nat.succ_pos k
        · rw [hmachine, Machine.follow_of_fault hbefore hfault, inFrame, frameActions,
            List.take_succ_cons, Machine.take_cycles _ hle, frameActions]
        · rw [hending] at hnone
          cases hnone

theorem play_cons_of_some {threshold : Severity} {e : Ending}
    (h : (s.frame threshold i.clock i.typed).ending? = some e) :
    let f := s.frame threshold i.clock i.typed
    s.play threshold (i :: l) = ⟨f.session, f.events, 0, f.rang.toNat, some e⟩ := by
  rw [play]
  simp only [h]

theorem play_cons_of_none {threshold : Severity}
    (h : (s.frame threshold i.clock i.typed).ending? = none) :
    let f := s.frame threshold i.clock i.typed
    let o := f.session.play threshold l
    s.play threshold (i :: l)
      = ⟨o.session, f.events ++ o.events, o.completed + 1, f.rang.toNat + o.bells, o.ending?⟩ := by
  rw [play]
  simp only [h]

end Frame

/-! ## Frame after frame -/

/-- The bell knows whether the machine's sound is on. -/
def Heard (s : Session) : Prop := s.bell.sounding = decide (0 < s.machine.timers.sound)

/-- The sound is off after `k` frames, and on one frame later. -/
def SoundStarts (s : Session) (l : List Input) (k : Nat) : Prop :=
  (s.after l k).timers.sound = 0 ∧ 0 < (s.after l (k + 1)).timers.sound

instance (s : Session) (l : List Input) : DecidablePred (s.SoundStarts l) := fun k => by
  unfold SoundStarts
  infer_instance

/-- Of the starts among one frame more, those after the first frame are the
starts of the session that goes on from there. -/
theorem countP_soundStarts {s : Session} {i : Input} {l : List Input} (h : ¬ Quits i.typed)
    (n : Nat) :
    (List.range (n + 1)).countP (fun k => s.SoundStarts (i :: l) k)
      = (if s.SoundStarts (i :: l) 0 then 1 else 0)
        + (List.range n).countP (fun k => (s.next i).SoundStarts l k) := by
  have hrest : (fun k => decide (s.SoundStarts (i :: l) k)) ∘ Nat.succ
      = fun k => decide ((s.next i).SoundStarts l k) := by
    funext k
    simp only [Function.comp, SoundStarts, after_succ h]
  rw [List.range_succ_eq_map, List.countP_cons, List.countP_map, hrest, Nat.add_comm]
  simp only [decide_eq_true_eq]

theorem rings_next_iff {s : Session} {i : Input} (hs : s.Heard) (h : ¬ Quits i.typed)
    (l : List Input) :
    s.bell.Rings (s.next i).bell.sounding ↔ s.SoundStarts (i :: l) 0 := by
  have hoff : ¬ 0 < s.machine.timers.sound ↔ s.machine.timers.sound = 0 := by
    rw [UInt8.pos_iff_ne_zero, not_not]
  have hbefore : (¬ s.bell.sounding = true) ↔ s.machine.timers.sound = 0 := by
    rw [hs, decide_eq_true_eq, hoff]
  have hafter : (s.next i).bell.sounding = true ↔ 0 < (s.next i).machine.timers.sound :=
    decide_eq_true_iff
  rw [Bell.Rings, SoundStarts, after_zero, after_succ h, after_zero, hbefore, hafter, and_comm]

/-- What was played is what the actions of the session do. -/
structure Tracks (s : Session) (l : List Input) (o : Played) : Prop where
  machine : o.session.machine = (s.machine.follow (s.actions l)).machine
  completed : o.completed
    = (s.machine.follow (s.actions l)).completed / (s.settings.perFrame + 1)
  ending : o.ending? = match (s.machine.follow (s.actions l)).halt? with
    | some halt => some (.halted halt)
    | none => if ∃ i ∈ l, Quits i.typed then some .quit else none
  bells : o.bells = (List.range o.completed).countP fun k => s.SoundStarts l k
  bell : o.session.bell.sounding = decide (0 < (s.after l o.completed).timers.sound)

namespace Tracks

variable {s : Session} {threshold : Severity} {i : Input} {l : List Input}

theorem nil (hs : s.Heard) : Tracks s [] (s.play threshold []) where
  machine := rfl
  completed := (Nat.zero_div _).symm
  ending := rfl
  bells := rfl
  bell := by
    rw [play, after_zero]
    exact hs

theorem quit (hs : s.Heard) (h : Quits i.typed) :
    Tracks s (i :: l) (s.play threshold (i :: l)) := by
  have hf := frame_of_quits (s := s) threshold h
  rw [play_cons_of_some (congrArg Frame.ending? hf), hf]
  constructor
  · rw [actions_cons_of_quits h]; rfl
  · rw [actions_cons_of_quits h]; exact (Nat.zero_div _).symm
  · rw [actions_cons_of_quits h]
    exact (if_pos ⟨i, List.mem_cons_self .., h⟩).symm
  · rfl
  · rw [after_zero]
    exact hs

theorem halt {halt : Halt} (hs : s.Heard) (h : ¬ Quits i.typed)
    (hq : (s.machine.follow (s.inFrame i)).halt? = some halt) :
    Tracks s (i :: l) (s.play threshold (i :: l)) := by
  obtain ⟨hmachine, hbell, hrang, hending⟩ := frame_of_halt threshold h hq
  have hfollow : s.machine.follow (s.actions (i :: l)) = s.machine.follow (s.inFrame i) := by
    rw [actions_cons_of_not_quits h, Machine.follow_append, hq]
  have hlt := Machine.completed_follow_lt hq
  rw [length_inFrame] at hlt
  rw [play_cons_of_some hending, hrang]
  constructor
  · rw [hfollow, hmachine]
  · rw [hfollow, Nat.div_eq_of_lt hlt]
  · rw [hfollow, hq]
  · rfl
  · rw [after_zero, hbell]
    exact hs

/-- The frame comes to its end, and the session goes on from there. -/
theorem frame (hs : s.Heard) (h : ¬ Quits i.typed)
    (hq : (s.machine.follow (s.inFrame i)).halt? = none)
    (ht : Tracks (s.next i) l ((s.next i).play threshold l)) :
    Tracks s (i :: l) (s.play threshold (i :: l)) := by
  obtain ⟨hsession, hrang, hending⟩ := frame_of_none threshold h hq
  have hfollow : s.machine.follow (s.actions (i :: l))
      = { (s.next i).machine.follow ((s.next i).actions l) with
          completed := (s.settings.perFrame + 1)
            + ((s.next i).machine.follow ((s.next i).actions l)).completed } := by
    rw [actions_cons_of_not_quits h, Machine.follow_append, hq, length_inFrame]
    rfl
  rw [play_cons_of_none hending, hsession, hrang]
  constructor
  · rw [hfollow, ht.machine]
  · rw [hfollow, Nat.add_div_left _ (Nat.succ_pos _), ht.completed]
    rfl
  · rw [hfollow, ht.ending]
    simp [h]
  · have hring : (decide (s.bell.Rings (s.next i).bell.sounding)).toNat
        = if s.SoundStarts (i :: l) 0 then 1 else 0 := by
      simp only [rings_next_iff hs h l]
      by_cases hsound : s.SoundStarts (i :: l) 0 <;> simp [hsound]
    rw [countP_soundStarts h, hring, ht.bells]
  · rw [after_succ h, ht.bell]

end Tracks

theorem tracks_play {s : Session} (hs : s.Heard) (threshold : Severity) (l : List Input) :
    Tracks s l (s.play threshold l) := by
  induction l generalizing s with
  | nil => exact Tracks.nil hs
  | cons i l ih =>
      by_cases h : Quits i.typed
      · exact Tracks.quit hs h
      · cases hq : (s.machine.follow (s.inFrame i)).halt? with
        | some halt => exact Tracks.halt hs h hq
        | none => exact Tracks.frame hs h hq (ih rfl)

/-- **A session is a run, cut short.** The actions of a session are known
beforehand: every frame before the first that is told to quit sets the
keypad once and runs a fixed number of cycles on it. If none of them fails
they are what happens, and the session quits if it is told to and goes on
otherwise. If one fails, which only a cycle can, the session halts with it,
in the frame that the cycle belongs to and where the program counter stood
before it. Frames that came to their end are all that the bell hears of: it
rings for each in which the sound came on. -/
theorem play_is_run (settings : Settings) {program : List UInt8} {random : Generator}
    {created : Time} {m : Machine} (hm : Machine.load program random created = .ok m)
    (threshold : Severity) (l : List Input) :
    let s : Session := ⟨settings, m, .none, .silent⟩
    let frames := untilQuit l
    let perFrame := settings.ips.toNat / settings.frameRate.toNat
    let acts := timetable perFrame .none frames
    let after := fun k => m.run (acts.take (k * (perFrame + 1)))
    let o := s.play threshold l
    (start settings (.ok program) random created).map Prod.fst = .ok s
    ∧ acts.length = frames.length * (perFrame + 1)
    ∧ (∀ k i, frames[k]? = some i →
        let codes := (heldAfter .none (frames.take (k + 1))).toList
        (acts.drop (k * (perFrame + 1))).take (perFrame + 1)
            = .setKeys codes :: Machine.cycles i.clock perFrame
          ∧ ∀ c ≤ perFrame,
              (m.run (acts.take (k * (perFrame + 1) + (c + 1)))).keypad = .ofCodes codes)
    ∧ ((∀ f ∈ m.faults acts, f = none) →
        o.session.machine = m.run acts
        ∧ o.completed = frames.length
        ∧ (m.cycled acts).length = frames.length * perFrame
        ∧ o.ending? = if ∃ i ∈ l, Quits i.typed then some .quit else none)
    ∧ (∀ j f, (∀ g ∈ m.faults (acts.take j), g = none) → (m.faults acts)[j]? = some (some f) →
        (∃ t, acts[j]? = some (.cycle t))
        ∧ o.session.machine = m.run (acts.take (j + 1))
        ∧ o.completed = j / (perFrame + 1)
        ∧ o.ending? = some (.halted ⟨(m.run (acts.take j)).pc, f⟩))
    ∧ o.bells = (List.range o.completed).countP (fun k =>
        (after k).timers.sound = 0 ∧ 0 < (after (k + 1)).timers.sound)
    ∧ o.session.bell.sounding = decide (0 < (after o.completed).timers.sound) := by
  intro s frames perFrame acts after o
  have hstart : s.Heard := by
    obtain ⟨-, rfl⟩ := Machine.load_eq_ok_iff.mp hm
    rfl
  have ht : Tracks s l o := tracks_play hstart threshold l
  have hlength : acts.length = frames.length * (perFrame + 1) := length_timetable frames
  refine ⟨?_, hlength, ?_, ?_, ?_, ht.bells, ht.bell⟩
  · simp only [start, hm]
    rfl
  · intro k i hk codes
    exact ⟨take_drop_timetable hk, fun c hc => keypad_in_frame m hk hc⟩
  · intro h
    have hq : m.follow (s.actions l) = ⟨m.run acts, acts.length, none⟩ :=
      Machine.follow_of_faults_eq_none h
    refine ⟨?_, ?_, length_cycled_timetable m frames, ?_⟩
    · rw [ht.machine, hq]
    · rw [ht.completed, hq, hlength]
      exact Nat.mul_div_cancel _ (Nat.succ_pos _)
    · rw [ht.ending, hq]
  · intro j f hbefore hj
    have hq : m.follow (s.actions l)
        = ⟨m.run (acts.take (j + 1)), j, some ⟨(m.run (acts.take j)).pc, f⟩⟩ :=
      Machine.follow_of_fault hbefore hj
    refine ⟨Machine.exists_cycle_of_fault hj, ?_, ?_, ?_⟩
    · rw [ht.machine, hq]
    · rw [ht.completed, hq]
      rfl
    · rw [ht.ending, hq]

/-- Turns the sound on and jumps to where no word is. -/
private def soundProgram : List UInt8 := [0x60, 0x05, 0xF0, 0x18, 0x1F, 0xFF]

private def soundSettings : Settings := ⟨"sound.ch8", 180, 60, none, by decide, by decide⟩

/-- What the program does in its first frame. -/
private theorem run_soundProgram (codes : List UInt8) :
    let m := Machine.loaded soundProgram (.ofSeed 0) 0
    let frame : List Action := [.setKeys codes, .cycle 0, .cycle 0, .cycle 0]
    m.faults frame = [none, none, none, none]
      ∧ (m.run frame).pc = 0xFFF ∧ (m.run frame).timers.sound = 5 := by
  intro m frame
  let n₁ : Machine := { m with keypad := .ofCodes codes }
  let n₂ : Machine := { n₁ with pc := 0x202, registers := n₁.registers.set .first 5 }
  let n₃ : Machine := { n₂ with pc := 0x204, timers := ⟨0, 5, 0⟩ }
  let n₄ : Machine := { n₃ with pc := 0xFFF }
  have hp₁ : n₁.peek = .ok (.setByte .first 5) :=
    Machine.peek_of_program soundProgram 0 rfl rfl (by decide) rfl rfl rfl
  have hp₂ : n₂.peek = .ok (.setSound .first) :=
    Machine.peek_of_program soundProgram 2 rfl rfl (by decide) rfl rfl rfl
  have hp₃ : n₃.peek = .ok (.jump 0xFFF) :=
    Machine.peek_of_program soundProgram 4 rfl rfl (by decide) rfl rfl rfl
  have h₀ : (m.act (.setKeys codes)).machine = n₁ := rfl
  have h₁ : (n₁.act (.cycle 0)).machine = n₂ := by
    rw [Machine.act, Machine.machine_cycle_of_peek 0 hp₁]
    rfl
  have h₂ : (n₂.act (.cycle 0)).machine = n₃ := by
    rw [Machine.act, Machine.machine_cycle_of_peek 0 hp₂]
    rfl
  have h₃ : (n₃.act (.cycle 0)).machine = n₄ := by
    rw [Machine.act, Machine.machine_cycle_of_peek 0 hp₃]
    rfl
  have hf₁ : (n₁.act (.cycle 0)).fault? = none := Machine.fault?_cycle_of_peek 0 hp₁
  have hf₂ : (n₂.act (.cycle 0)).fault? = none := Machine.fault?_cycle_of_peek 0 hp₂
  have hf₃ : (n₃.act (.cycle 0)).fault? = none := Machine.fault?_cycle_of_peek 0 hp₃
  constructor
  · rw [Machine.faults, h₀, Machine.faults, h₁, hf₁, Machine.faults, h₂, hf₂, Machine.faults,
      h₃, hf₃]
    rfl
  · rw [Machine.run_cons_of_act h₀, Machine.run_cons_of_act h₁, Machine.run_cons_of_act h₂,
      Machine.run_cons_of_act h₃, Machine.run_nil]
    exact ⟨rfl, rfl⟩

/-- With three cycles in a frame, the bell rings for the first frame and the
second halts in its first cycle, unless it is told to quit. -/
theorem play_is_run_of_sound :
    let m := Machine.loaded soundProgram (.ofSeed 0) 0
    let s : Session := ⟨soundSettings, m, .none, .silent⟩
    let idle : Input := ⟨fun _ => 0, [.other]⟩
    let leave : Input := ⟨fun _ => 0, [.key ⟨.escape, .press⟩]⟩
    let result (o : Played) : Nat × Nat × Option Ending := (o.completed, o.bells, o.ending?)
    Machine.load soundProgram (.ofSeed 0) 0 = .ok m
    ∧ result (s.play .debug [idle, idle, leave])
        = (1, 1, some (.halted ⟨0xFFF, .outOfBounds 0xFFF⟩))
    ∧ result (s.play .debug [idle, leave]) = (1, 1, some .quit) := by
  intro m s idle leave result
  have hm : Machine.load soundProgram (.ofSeed 0) 0 = .ok m :=
    Machine.load_eq_ok_iff.mpr ⟨by decide, rfl⟩
  let codes (l : List Input) : List UInt8 := (heldAfter .none l).toList
  let frame : List Action := [.setKeys (codes [idle]), .cycle 0, .cycle 0, .cycle 0]
  obtain ⟨hfaults, hpc, hsound⟩ : m.faults frame = [none, none, none, none]
      ∧ (m.run frame).pc = 0xFFF ∧ (m.run frame).timers.sound = 5 :=
    run_soundProgram (codes [idle])
  have hbell : ∀ rest : List Action, (List.range 1).countP (fun k =>
      (m.run ((frame ++ rest).take (k * 4))).timers.sound = 0
        ∧ 0 < (m.run ((frame ++ rest).take ((k + 1) * 4))).timers.sound) = 1 := by
    intro rest
    have hfirst : (m.run ((frame ++ rest).take (0 * 4))).timers.sound = 0
        ∧ 0 < (m.run ((frame ++ rest).take ((0 + 1) * 4))).timers.sound := by
      have htake : (frame ++ rest).take 4 = frame := rfl
      rw [Nat.zero_add, Nat.one_mul, htake, hsound]
      exact ⟨rfl, by decide⟩
    rw [List.range_one, List.countP_singleton, if_pos (decide_eq_true hfirst)]
  -- nothing fails in the first frame, and the second is told to quit
  have hstay : ¬ Quits idle.typed := by
    rintro ⟨e, he, -⟩
    cases he
  have hleave : Quits leave.typed := ⟨_, List.mem_cons_self .., rfl⟩
  have hframes : untilQuit [idle, leave] = [idle] := by
    simp [untilQuit, hstay, hleave]
  have hnone : ∀ f ∈ m.faults frame, f = none := by
    rw [hfaults]
    decide
  obtain ⟨-, -, -, hquits, -, hrings, -⟩ := play_is_run soundSettings hm .debug [idle, leave]
  rw [hframes] at hquits hrings
  obtain ⟨-, hcompleted, -, hending⟩ := hquits hnone
  rw [hcompleted] at hrings
  have hleft : result (s.play .debug [idle, leave]) = (1, 1, some .quit) := by
    have hquit : ∃ i ∈ [idle, leave], Quits i.typed :=
      ⟨leave, List.mem_cons_of_mem _ (List.mem_cons_self ..), hleave⟩
    exact congrArg₂ Prod.mk hcompleted
      (congrArg₂ Prod.mk (hrings.trans (hbell [])) (hending.trans (if_pos hquit)))
  -- the second frame sets its keys, and its first cycle fails
  let start : List Action := frame ++ [.setKeys (codes [idle, idle])]
  have hpc' : (m.run start).pc = 0xFFF := by
    have hkeep : ∀ (n : Machine) (c : List UInt8), (n.act (.setKeys c)).machine.pc = n.pc :=
      fun _ _ => rfl
    rw [Machine.run_append, Machine.run_cons, Machine.run_nil, hkeep, hpc]
  have hbefore : ∀ g ∈ m.faults start, g = none := by
    rw [Machine.faults_append, hfaults]
    exact (by decide : ∀ g ∈ List.replicate 5 (none : Option Fault), g = none)
  have hcycle : ((m.run start).cycle 0).fault? = some (.outOfBounds 0xFFF) := by
    rw [Machine.cycle_of_lt 0 (by rw [hpc']; decide), hpc']
    rfl
  have hfault : (m.faults (start ++ [.cycle 0, .cycle 0, .cycle 0]))[5]?
      = some (some (.outOfBounds 0xFFF)) := by
    rw [Machine.faults_append, Machine.faults_append, hfaults]
    exact congrArg some hcycle
  have hframes' : untilQuit [idle, idle, leave] = [idle, idle] := by
    simp [untilQuit, hstay, hleave]
  obtain ⟨-, -, -, -, hhalts, hrings', -⟩ :=
    play_is_run soundSettings hm .debug [idle, idle, leave]
  rw [hframes'] at hhalts hrings'
  obtain ⟨-, -, hcompleted', hending'⟩ := hhalts 5 (.outOfBounds 0xFFF) hbefore hfault
  rw [hcompleted'] at hrings'
  have hhalt : (⟨(m.run start).pc, .outOfBounds 0xFFF⟩ : Halt) = ⟨0xFFF, .outOfBounds 0xFFF⟩ := by
    rw [hpc']
  have hhalted : result (s.play .debug [idle, idle, leave])
      = (1, 1, some (.halted ⟨0xFFF, .outOfBounds 0xFFF⟩)) :=
    congrArg₂ Prod.mk hcompleted' (congrArg₂ Prod.mk (hrings'.trans (hbell _))
      (hending'.trans (congrArg (fun h => some (Ending.halted h)) hhalt)))
  exact ⟨hm, hhalted, hleft⟩

end Session

end Chip8

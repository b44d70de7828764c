import Mathlib.Data.List.Chain
import Mathlib.Order.Bounds.Basic
import Mathlib.Order.Monotone.Basic
import Chip8.Proofs.Countdown

/-!
# Ticks

What a sequence of updates does to the timers, when the updates come at
any times at all. The updates that count down are the ticks, and
`Timers.tickTimes` lists their times. A tick moves the anchor to its own
time and nothing else moves it, so two ticks are always more than an
interval apart (`spaced_tickTimes`): that is the fastest rate. If no
update comes more than `g` after the one before it, a tick is late by no
more than `g`, and that is the slowest rate (`getLastD_le`).

Of all ways to pick times that far apart from the times of the updates,
the ticks are a longest one (`length_le_ticks`). An update more can move
every tick that follows, but a tick that comes earlier only makes room
for those after it, so nothing is lost by it.
-/

namespace Chip8

namespace Timers

/-- The timers after updates at these times, one after the other. -/
def updates (timers : Timers) (l : List Time) : Timers := l.foldl update timers

/-- The times of those updates that count down. -/
def tickTimes (timers : Timers) : List Time → List Time
  | [] => []
  | t :: l =>
    if timers.Due t then t :: (timers.update t).tickTimes l else (timers.update t).tickTimes l

/-- How many of the updates count down. -/
def ticks (timers : Timers) (l : List Time) : Nat := (timers.tickTimes l).length

/-- Each of the times is past the one before it by more than an interval,
the first one past `a`. -/
def Spaced (a : Time) (l : List Time) : Prop := (a :: l).IsChain fun s t => s + interval < t

/-! ## One update -/

section Update

variable {timers : Timers} {t : Time}

theorem update_of_not_due (h : ¬ timers.Due t) : timers.update t = timers := if_neg h

theorem lastTick_update_of_due (h : timers.Due t) : (timers.update t).lastTick = t := by
  rw [lastTick_update, if_pos h]

theorem lastTick_le_update (timers : Timers) (t : Time) :
    timers.lastTick ≤ (timers.update t).lastTick := by
  by_cases h : timers.Due t
  · rw [lastTick_update_of_due h]
    exact Nat.le_trans (Nat.le_add_right _ _) (Nat.le_of_lt (due_iff.mp h))
  · rw [update_of_not_due h]

end Update

/-! ## Many updates -/

section Updates

variable {timers : Timers} {t : Time} {l : List Time}

@[simp] theorem updates_cons : timers.updates (t :: l) = (timers.update t).updates l := rfl

theorem updates_concat : timers.updates (l ++ [t]) = (timers.updates l).update t := by
  rw [updates, List.foldl_concat, updates]

theorem updates_take_succ {k : Nat} (h : l[k]? = some t) :
    timers.updates (l.take (k + 1)) = (timers.updates (l.take k)).update t := by
  rw [List.take_add_one, h, Option.toList_some, updates_concat]

theorem tickTimes_cons_of_due (h : timers.Due t) :
    timers.tickTimes (t :: l) = t :: (timers.update t).tickTimes l := if_pos h

theorem tickTimes_cons_of_not_due (h : ¬ timers.Due t) :
    timers.tickTimes (t :: l) = timers.tickTimes l := by
  rw [tickTimes, if_neg h, update_of_not_due h]

theorem ticks_cons_of_due (h : timers.Due t) :
    timers.ticks (t :: l) = (timers.update t).ticks l + 1 := by
  rw [ticks, tickTimes_cons_of_due h, List.length_cons, ticks]

theorem ticks_cons_of_not_due (h : ¬ timers.Due t) :
    timers.ticks (t :: l) = timers.ticks l := by
  rw [ticks, tickTimes_cons_of_not_due h, ticks]

/-- The ticks alone decide what is left of the countdowns. -/
theorem toNat_value_updates (timers : Timers) (l : List Time) (c : Countdown) :
    ((timers.updates l).value c).toNat = (timers.value c).toNat - timers.ticks l := by
  induction l generalizing timers with
  | nil => rfl
  | cons t l ih =>
      rw [updates_cons, ih, toNat_value_update]
      by_cases h : timers.Due t
      · rw [if_pos h, ticks_cons_of_due h]
        omega
      · rw [if_neg h, ticks_cons_of_not_due h, update_of_not_due h, Nat.sub_zero]

/-! ## How fast the timers tick -/

theorem monotone_lastTick (timers : Timers) (l : List Time) :
    Monotone fun k => (timers.updates (l.take k)).lastTick := by
  refine monotone_nat_of_le_succ fun k => ?_
  cases h : l[k]? with
  | none => rw [List.take_add_one, h, Option.toList_none, List.append_nil]
  | some t =>
      rw [updates_take_succ h]
      exact lastTick_le_update _ t

theorem lastTick_updates_le (timers : Timers) (l : List Time) :
    (timers.updates l).lastTick ≤ l.foldl max timers.lastTick := by
  induction l using List.reverseRecOn with
  | nil => exact Nat.le_refl _
  | append_singleton l t ih =>
      rw [updates_concat, List.foldl_concat]
      by_cases h : (timers.updates l).Due t
      · rw [lastTick_update_of_due h]
        exact Nat.le_max_right _ _
      · rw [update_of_not_due h]
        exact Nat.le_trans ih (Nat.le_max_left _ _)

/-- Every tick takes the anchor further by more than an interval. -/
theorem mul_ticks_le (timers : Timers) (l : List Time) :
    timers.lastTick + timers.ticks l * (interval + 1) ≤ (timers.updates l).lastTick := by
  induction l generalizing timers with
  | nil => exact Nat.le_of_eq (by rw [ticks, tickTimes, List.length_nil, Nat.zero_mul]; rfl)
  | cons t l ih =>
      have hl := ih (timers.update t)
      by_cases h : timers.Due t
      · have hstep : timers.lastTick + (interval + 1) ≤ t := due_iff.mp h
        rw [lastTick_update_of_due h] at hl
        rw [updates_cons, ticks_cons_of_due h, Nat.succ_mul, Nat.add_comm (_ * _), ← Nat.add_assoc]
        exact Nat.le_trans (Nat.add_le_add_right hstep _) hl
      · rw [update_of_not_due h] at hl
        rwa [updates_cons, ticks_cons_of_not_due h, update_of_not_due h]

/-- The latest update was at `s` and did not count down, or it did and `s`
is the anchor; the next ones follow in steps of at most `g`. -/
theorem getLastD_le {timers : Timers} {s g : Nat} {l : List Time}
    (hs : s ≤ timers.lastTick + interval) (hl : (s :: l).IsChain fun s t => t ≤ s + g) :
    l.getLastD s ≤ timers.lastTick + timers.ticks l * (interval + g) + interval := by
  induction l generalizing timers s with
  | nil => exact Nat.le_trans hs (Nat.add_le_add_right (Nat.le_add_right _ _) _)
  | cons t l ih =>
      obtain ⟨hst, htl⟩ := List.isChain_cons_cons.mp hl
      rw [List.getLastD_cons]
      by_cases h : timers.Due t
      · have hlast := lastTick_update_of_due h
        have hanchor : t ≤ (timers.update t).lastTick + interval := by
          rw [hlast]
          exact Nat.le_add_right _ _
        have hnext := ih hanchor htl
        have htick : t ≤ timers.lastTick + (interval + g) := by
          rw [← Nat.add_assoc]
          exact Nat.le_trans hst (Nat.add_le_add_right hs g)
        rw [hlast] at hnext
        rw [ticks_cons_of_due h, Nat.succ_mul, Nat.add_comm (_ * _), ← Nat.add_assoc]
        exact Nat.le_trans hnext (Nat.add_le_add_right (Nat.add_le_add_right htick _) _)
      · rw [ticks_cons_of_not_due h]
        exact ih (Nat.le_of_not_lt fun hlt => h (due_iff.mpr hlt)) htl

end Updates

/-- **The rate of the ticks.** Whenever the updates come, forward or
backward in time, the anchor never moves back, an update not more than an
interval past it changes nothing, and the anchor moves by more than an
interval at each tick, but not past the latest of the times. If no update
comes more than `g` after the one before it, no tick is late by more than
`g`, the next one included. Each tick takes one off the countdowns. -/
theorem tick_rate (timers : Timers) (l : List Time) :
    let last := timers.updates l
    let k := timers.ticks l
    (Monotone fun n => (timers.updates (l.take n)).lastTick)
    ∧ (∀ n t, l[n]? = some t → t ≤ (timers.updates (l.take n)).lastTick + interval →
        timers.updates (l.take (n + 1)) = timers.updates (l.take n))
    ∧ timers.lastTick + k * (interval + 1) ≤ last.lastTick
    ∧ last.lastTick ≤ l.foldl max timers.lastTick
    ∧ (∀ g, (timers.lastTick :: l).IsChain (fun s t => t ≤ s + g) →
        l.getLastD timers.lastTick ≤ timers.lastTick + k * (interval + g) + interval)
    ∧ ∀ c, (last.value c).toNat = (timers.value c).toNat - k := by
  intro last k
  refine ⟨timers.monotone_lastTick l, ?_, timers.mul_ticks_le l, timers.lastTick_updates_le l,
    ?_, timers.toNat_value_updates l⟩
  · intro n t hn ht
    rw [updates_take_succ hn]
    exact update_of_not_due fun hdue => Nat.not_lt.mpr ht (due_iff.mp hdue)
  · intro g hg
    exact getLastD_le (Nat.le_add_right _ _) hg

/-- An update just too early and a tick as late as it can be; ticks as
early as they can be. Both bounds are reached. -/
theorem tick_rate_at_bounds :
    let timers : Timers := ⟨5, 0, 0⟩
    let late := [interval, interval + 20000000, 2 * interval + 20000000]
    let prompt := [interval + 1, 2 * (interval + 1)]
    (late[0]? = some interval ∧ interval ≤ (timers.updates (late.take 0)).lastTick + interval
      ∧ (timers.lastTick :: late).IsChain fun s t => t ≤ s + 20000000)
    ∧ timers.updates (late.take 1) = timers
    ∧ late.getLastD timers.lastTick
      = timers.lastTick + timers.ticks late * (interval + 20000000) + interval
    ∧ (timers.updates prompt).lastTick
      = timers.lastTick + timers.ticks prompt * (interval + 1)
    ∧ ((timers.updates prompt).value .delay).toNat = 3 := by
  intro timers late prompt
  have hstill : interval ≤ (timers.updates (late.take 0)).lastTick + interval := by decide
  have hchain : (timers.lastTick :: late).IsChain fun s t => t ≤ s + 20000000 := by decide
  obtain ⟨-, hnothing, -, -, hlate, -⟩ := timers.tick_rate late
  obtain ⟨-, -, hprompt, -, -, hvalue⟩ := timers.tick_rate prompt
  refine ⟨⟨rfl, hstill, hchain⟩, hnothing 0 _ rfl hstill, ?_, ?_, hvalue .delay⟩
  · exact Nat.le_antisymm (hlate _ hchain) (by decide)
  · exact Nat.le_antisymm (by decide) hprompt

/-! ## More updates, more ticks -/

theorem tickTimes_sublist (timers : Timers) (l : List Time) : (timers.tickTimes l).Sublist l := by
  induction l generalizing timers with
  | nil => exact List.Sublist.slnil
  | cons t l ih =>
      by_cases h : timers.Due t
      · rw [tickTimes_cons_of_due h]
        exact (ih _).cons_cons t
      · rw [tickTimes_cons_of_not_due h]
        exact (ih _).cons t

theorem spaced_tickTimes (timers : Timers) (l : List Time) :
    Spaced timers.lastTick (timers.tickTimes l) := by
  induction l generalizing timers with
  | nil => exact List.isChain_singleton _
  | cons t l ih =>
      by_cases h : timers.Due t
      · have hnext := ih (timers.update t)
        rw [lastTick_update_of_due h] at hnext
        rw [tickTimes_cons_of_due h]
        exact List.isChain_cons_cons.mpr ⟨due_iff.mp h, hnext⟩
      · rw [tickTimes_cons_of_not_due h]
        exact ih timers

/-- The ticks stay ahead of any other choice of times. What is carried is
that the anchor is no later than the time chosen last. -/
theorem length_le_ticks {timers : Timers} {l s : List Time} {a : Time}
    (hl : l.Pairwise (· ≤ ·)) (hs : s.Sublist l) (hspaced : Spaced a s) (ha : timers.lastTick ≤ a) :
    s.length ≤ timers.ticks l := by
  induction l generalizing timers s a with
  | nil => exact hs.length_le
  | cons t l ih =>
      obtain ⟨ht, hl'⟩ := List.pairwise_cons.mp hl
      cases s with
      | nil => exact Nat.zero_le _
      | cons u s =>
          obtain ⟨hau, hspaced'⟩ := List.isChain_cons_cons.mp hspaced
          by_cases h : timers.Due t
          · -- a tick is no later than the first choice, whichever that is
            have htu : t ≤ u := by
              rcases List.mem_cons.mp (hs.subset (List.mem_cons_self ..)) with rfl | hu
              · exact Nat.le_refl _
              · exact ht u hu
            have hnext : (timers.update t).lastTick ≤ u := by rwa [lastTick_update_of_due h]
            rw [ticks_cons_of_due h, List.length_cons]
            exact Nat.succ_le_succ (ih hl' hs.of_cons_cons hspaced' hnext)
          · -- and without a tick the first choice is still to come
            have hne : u ≠ t := by
              rintro rfl
              exact h (due_iff.mpr (Nat.lt_of_le_of_lt (Nat.add_le_add_right ha _) hau))
            have hs' : (u :: s).Sublist l := by
              cases hs with
              | cons _ hs => exact hs
              | cons_cons _ hs => exact absurd rfl hne
            rw [ticks_cons_of_not_due h]
            exact ih hl' hs' hspaced ha

/-- **More updates never make the timers slower.** Updates at more times
tick at least as often, and leave both countdowns at least as low. There
are as many ticks as times can be picked from those of the updates that
are each past the one before by more than an interval. -/
theorem ticks_of_denser (timers : Timers) {l : List Time} (hl : l.Pairwise (· ≤ ·)) :
    (∀ s, s.Sublist l → timers.ticks s ≤ timers.ticks l
      ∧ ∀ c, (timers.updates l).value c ≤ (timers.updates s).value c)
    ∧ IsGreatest {k | ∃ s, s.Sublist l ∧ Spaced timers.lastTick s ∧ s.length = k}
        (timers.ticks l) := by
  refine ⟨?_, ?_, ?_⟩
  · intro s hs
    have hticks : timers.ticks s ≤ timers.ticks l :=
      length_le_ticks hl ((timers.tickTimes_sublist s).trans hs) (timers.spaced_tickTimes s)
        (Nat.le_refl _)
    refine ⟨hticks, fun c => ?_⟩
    rw [UInt8.le_iff_toNat_le, toNat_value_updates, toNat_value_updates]
    exact Nat.sub_le_sub_left hticks _
  · exact ⟨_, timers.tickTimes_sublist l, timers.spaced_tickTimes l, rfl⟩
  · rintro k ⟨s, hs, hspaced, rfl⟩
    exact length_le_ticks hl hs hspaced (Nat.le_refl _)

/-- The additional updates move both ticks, and add one. -/
theorem ticks_of_denser_out_of_phase :
    let timers : Timers := ⟨2, 9, 0⟩
    let sparse := [20000000, 40000000]
    let dense := [17000000, 20000000, 34000000, 40000000, 51000000]
    (dense.Pairwise (· ≤ ·) ∧ sparse.Sublist dense)
    ∧ timers.tickTimes dense = [17000000, 34000000, 51000000]
    ∧ timers.ticks sparse ≤ timers.ticks dense
    ∧ (timers.updates dense).value .sound ≤ (timers.updates sparse).value .sound
    ∧ ∀ s, s.Sublist dense → Spaced 0 s → s.length ≤ 3 := by
  intro timers sparse dense
  have hdense : dense.Pairwise (· ≤ ·) := by decide
  have hsub : sparse.Sublist dense := by decide
  obtain ⟨hmore, -, hgreatest⟩ := timers.ticks_of_denser hdense
  obtain ⟨hticks, hvalue⟩ := hmore sparse hsub
  exact ⟨⟨hdense, hsub⟩, by decide, hticks, hvalue .sound,
    fun s hs hspaced => hgreatest ⟨s, hs, hspaced, rfl⟩⟩

end Timers

end Chip8

/-!
# Timers

Two countdowns that share one clock. An update counts both down by one if more
than a sixtieth of a second has passed since the last time it did so, or since
the timers were created if it never has; ticks that were missed are not made
up for, and the clock running backwards is no tick.
-/

namespace Chip8

/-- A point in time, in nanoseconds on a clock that all machines share. -/
abbrev Time := Nat

structure Timers where
  delay : UInt8
  sound : UInt8
  /-- When both last counted down, or were created. -/
  lastTick : Time
deriving Repr, DecidableEq

namespace Timers

/-- One sixtieth of a second, rounded down. -/
def interval : Nat := 1000000000 / 60

/-- Both at zero. The first tick is measured from their creation. -/
def initial (created : Time) : Timers := ⟨0, 0, created⟩

instance : Inhabited Timers := ⟨initial 0⟩

/-- One less, but not below zero. -/
def countDown (v : UInt8) : UInt8 := if v = 0 then 0 else v - 1

/-- An update at time `t` counts down. -/
def Due (timers : Timers) (t : Time) : Prop := interval < t - timers.lastTick

instance (timers : Timers) (t : Time) : Decidable (timers.Due t) := by
  unfold Due; infer_instance

def update (timers : Timers) (t : Time) : Timers :=
  if timers.Due t then ⟨countDown timers.delay, countDown timers.sound, t⟩ else timers

theorem toNat_countDown (v : UInt8) : (countDown v).toNat = v.toNat - 1 := by
  unfold countDown
  by_cases h : v = 0
  · simp [h]
  · have hv : v.toNat ≠ 0 := fun e => h (UInt8.toNat_inj.mp e)
    have hlt := v.toNat_lt
    simp only [h, ↓reduceIte, UInt8.toNat_sub, UInt8.toNat_one]
    omega

end Timers

end Chip8

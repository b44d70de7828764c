/-!
# The bell

A terminal has no tone to hold, so the bell rings once each time the sound
starts.
-/

namespace Chip8

structure Bell where
  /-- The sound was on when the bell last heard of it. -/
  sounding : Bool
deriving Repr, DecidableEq

namespace Bell

def silent : Bell := ⟨false⟩

/-- Hearing that the sound is on or off makes the bell ring. -/
def Rings (b : Bell) (sounding : Bool) : Prop := sounding ∧ ¬ b.sounding

instance (b : Bell) (sounding : Bool) : Decidable (b.Rings sounding) := by
  unfold Rings; infer_instance

def hear (b : Bell) (sounding : Bool) : Bell := { b with sounding := sounding }

/-- How often the bell rings at each of a sequence of reports. -/
def rings (b : Bell) : List Bool → List Nat
  | [] => []
  | sounding :: rest =>
    (if b.Rings sounding then 1 else 0) :: (b.hear sounding).rings rest

end Bell

end Chip8

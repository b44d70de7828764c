/-!
# Sets of characters

Properties of characters are given as ranges of code points, with both ends
included.
-/

namespace Chip8

/-- The characters whose code points lie in one of the ranges. -/
structure CharSet where
  ranges : List (Nat × Nat)

namespace CharSet

instance : Membership Char CharSet :=
  ⟨fun s c => ∃ r ∈ s.ranges, r.1 ≤ c.toNat ∧ c.toNat ≤ r.2⟩

theorem mem_def {s : CharSet} {c : Char} :
    c ∈ s ↔ ∃ r ∈ s.ranges, r.1 ≤ c.toNat ∧ c.toNat ≤ r.2 := Iff.rfl

instance (c : Char) (s : CharSet) : Decidable (c ∈ s) :=
  decidable_of_iff _ mem_def.symm

/-- A text begins with a character of the set. -/
def Begins (s : CharSet) (text : List Char) : Prop := text.head?.any (· ∈ s)

instance (s : CharSet) (text : List Char) : Decidable (s.Begins text) := by
  unfold Begins; infer_instance

end CharSet

end Chip8

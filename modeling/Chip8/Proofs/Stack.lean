import Chip8.CallStack

/-!
# The call stack as a list

`CallStack.toList` is what a caller sees of the stack; the slots hold it
from the bottom, and every slot that is not in use is zero (`Cleared`).
A cleared stack is therefore fixed by its list (`eq_of_toList_eq`):
giving an address back leaves no trace of it.
-/

namespace Chip8

namespace CallStack

/-- Every slot that is not in use is zero. -/
def Cleared (s : CallStack) : Prop :=
  ∀ k (h : k < 16), s.depth ≤ k → s.slots[k] = 0

theorem cleared_empty : empty.Cleared := by
  intro k h _
  simp [empty]

/-! ## The two operations -/

theorem push_of_lt {s : CallStack} (a : Address) (h : s.depth < 16) :
    s.push a = .ok ⟨s.slots.set s.depth a, s.depth + 1, h⟩ := by
  simp [push, h]

theorem Cleared.push {s t : CallStack} {a : Address} (hs : s.Cleared)
    (h : s.push a = .ok t) : t.Cleared := by
  unfold CallStack.push at h
  split at h
  · cases h
    intro k hk hle
    have hne : s.depth ≠ k := by simp only at hle; omega
    simp only [Vector.getElem_set, if_neg hne]
    exact hs k hk (Nat.le_of_succ_le hle)
  · cases h

theorem Cleared.pop? {s t : CallStack} {a : Address} (hs : s.Cleared)
    (h : s.pop? = some (a, t)) : t.Cleared := by
  obtain ⟨slots, depth, hd⟩ := s
  cases depth with
  | zero => cases h
  | succ depth =>
      simp only [CallStack.pop?, Option.some.injEq, Prod.mk.injEq] at h
      obtain ⟨-, rfl⟩ := h
      intro k hk hle
      by_cases hkd : depth = k
      · simp [hkd]
      · simp only [Vector.getElem_set, if_neg hkd]
        simp only at hle
        exact hs k hk (by simp only; omega)

theorem depth_of_push {s t : CallStack} {a : Address} (h : s.push a = .ok t) :
    t.depth = s.depth + 1 := by
  have := congrArg List.length (toList_push h)
  simpa using this

/-! ## Slots and list -/

theorem getElem?_toList {s : CallStack} {k : Nat} (h : k < 16) (hk : k < s.depth) :
    s.toList[k]? = some s.slots[k] := by
  simp [toList, hk, h]

/-- On a cleared stack nothing but the list is left to be told apart. -/
theorem eq_of_toList_eq {s t : CallStack} (hs : s.Cleared) (ht : t.Cleared)
    (h : s.toList = t.toList) : s = t := by
  have hd : s.depth = t.depth := by
    rw [← length_toList s, ← length_toList t, h]
  have hslots : s.slots = t.slots := by
    refine Vector.ext fun k hk => ?_
    rcases Nat.lt_or_ge k s.depth with hlt | hge
    · have hk' := getElem?_toList hk hlt
      rw [h, getElem?_toList hk (hd ▸ hlt)] at hk'
      exact (Option.some.inj hk').symm
    · rw [hs k hk hge, ht k hk (hd ▸ hge)]
  obtain ⟨slots, depth, _⟩ := s
  obtain ⟨slots', depth', _⟩ := t
  cases hd
  cases hslots
  rfl

end CallStack

end Chip8

import Chip8.Fault

/-!
# The call stack

Sixteen slots for return addresses, filled from the bottom. A slot that is
given up is zeroed, so what the slots show depends only on the addresses that
are on the stack.
-/

namespace Chip8

structure CallStack where
  slots : Vector Address 16
  /-- How many slots are in use. -/
  depth : Nat
  depth_le : depth ≤ 16
deriving Repr, DecidableEq

namespace CallStack

def empty : CallStack := ⟨Vector.replicate 16 0, 0, by decide⟩

instance : Inhabited CallStack := ⟨empty⟩

/-- Puts an address on top, unless the stack is full. -/
def push (s : CallStack) (a : Address) : Except Fault CallStack :=
  if h : s.depth < 16 then
    .ok ⟨s.slots.set s.depth a, s.depth + 1, h⟩
  else .error (.stackOverflow a)

/-- The top address and the stack below it. -/
def pop? (s : CallStack) : Option (Address × CallStack) :=
  match s with
  | ⟨_, 0, _⟩ => none
  | ⟨slots, depth + 1, h⟩ =>
    some (slots[depth], ⟨slots.set depth 0, depth, Nat.le_of_succ_le h⟩)

/-- The addresses on the stack, from bottom to top. -/
def toList (s : CallStack) : List Address := s.slots.toList.take s.depth

@[simp] theorem length_toList (s : CallStack) : s.toList.length = s.depth := by
  have h := s.depth_le
  simp only [toList, List.length_take, Vector.length_toList]
  omega

@[simp] theorem toList_empty : empty.toList = [] := rfl

theorem toList_push {s t : CallStack} {a : Address} (h : s.push a = .ok t) :
    t.toList = s.toList ++ [a] := by
  unfold push at h
  split at h
  · rename_i hlt
    cases h
    simp only [toList, Vector.toList_set]
    rw [List.take_succ_eq_append_getElem (by simpa using hlt),
      List.take_set_of_le (Nat.le_refl _)]
    simp
  · cases h

theorem push_eq_error_iff {s : CallStack} {a : Address} {f : Fault} :
    s.push a = .error f ↔ s.depth = 16 ∧ f = .stackOverflow a := by
  have h := s.depth_le
  unfold push
  split
  · rename_i hlt
    simp [Nat.ne_of_lt hlt]
  · have hd : s.depth = 16 := by omega
    simp [hd, eq_comm]

theorem toList_of_pop? {s t : CallStack} {a : Address} (h : s.pop? = some (a, t)) :
    s.toList = t.toList ++ [a] := by
  obtain ⟨slots, depth, hd⟩ := s
  cases depth with
  | zero => cases h
  | succ depth =>
    simp only [pop?, Option.some.injEq, Prod.mk.injEq] at h
    obtain ⟨rfl, rfl⟩ := h
    simp only [toList, Vector.toList_set]
    rw [List.take_succ_eq_append_getElem (by rw [Vector.length_toList]; exact hd),
      List.take_set_of_le (Nat.le_refl _)]
    simp

theorem pop?_eq_none_iff {s : CallStack} : s.pop? = none ↔ s.toList = [] := by
  obtain ⟨slots, depth, hd⟩ := s
  cases depth <;> simp [pop?, toList]

end CallStack

end Chip8

import Chip8.Proofs.Stack

/-!
# Pushes and pops

To its callers the call stack is a list of at most sixteen addresses. Every
answer that it gives to a sequence of pushes and pops is the list's, and
what is in the slots can be read off the list: the addresses from the bottom
on, then zeros (`CallStack.behaves_as_list`).

That a stack holds a list is what one operation preserves (`Holds.apply`),
whether it succeeds, is refused or finds nothing to pop. The sequence is an
induction over its operations.
-/

namespace Chip8

namespace CallStack

inductive Op where
  | push (a : Address)
  | pop
deriving Repr, DecidableEq

inductive Answer where
  | pushed
  | refused (fault : Fault)
  | popped (a? : Option Address)
deriving Repr, DecidableEq

/-- The stack after an operation, and the answer. A push that is refused
leaves the stack as it is, and so does a pop that finds nothing. -/
def apply (s : CallStack) : Op → CallStack × Answer
  | .push a =>
    match s.push a with
    | .ok t => (t, .pushed)
    | .error fault => (s, .refused fault)
  | .pop =>
    match s.pop? with
    | some (a, t) => (t, .popped (some a))
    | none => (s, .popped none)

/-- The same on a list that keeps at most sixteen addresses, the top last. -/
def applyList (l : List Address) : Op → List Address × Answer
  | .push a =>
    if l.length < 16 then (l ++ [a], .pushed) else (l, .refused (.stackOverflow a))
  | .pop =>
    match l.getLast? with
    | some a => (l.dropLast, .popped (some a))
    | none => (l, .popped none)

/-- What operations lead to, with the answer of each. -/
def replay {σ : Type} (step : σ → Op → σ × Answer) (s : σ) : List Op → σ × List Answer
  | [] => (s, [])
  | op :: rest =>
    let r := replay step (step s op).1 rest
    (r.1, (step s op).2 :: r.2)

/-- The list is on the stack and nothing else is. -/
structure Holds (s : CallStack) (l : List Address) : Prop where
  cleared : s.Cleared
  toList : s.toList = l

theorem holds_empty : Holds empty [] := ⟨cleared_empty, toList_empty⟩

namespace Holds

variable {s : CallStack} {l : List Address}

theorem depth (h : Holds s l) : s.depth = l.length := by
  rw [← h.toList, length_toList]

theorem slots (h : Holds s l) :
    s.slots.toList = l ++ List.replicate (16 - l.length) 0 := by
  have hzeros : s.slots.toList.drop s.depth = List.replicate (16 - s.depth) 0 := by
    refine List.eq_replicate_iff.mpr ⟨by simp, fun b hb => ?_⟩
    obtain ⟨k, hk, rfl⟩ := List.mem_iff_getElem.mp hb
    rw [List.length_drop, Vector.length_toList] at hk
    rw [List.getElem_drop, Vector.getElem_toList]
    exact h.cleared _ (by omega) (Nat.le_add_right _ k)
  rw [← List.take_append_drop s.depth s.slots.toList, hzeros, h.depth]
  exact congrArg (· ++ _) (h.depth ▸ h.toList)

/-! ## One operation -/

theorem push (h : Holds s l) (a : Address) :
    Holds (s.apply (.push a)).1 (applyList l (.push a)).1
    ∧ (s.apply (.push a)).2 = (applyList l (.push a)).2 := by
  have hd := h.depth
  by_cases hroom : l.length < 16
  · have hpush := push_of_lt a (hd ▸ hroom)
    simp only [apply, applyList, hpush, if_pos hroom, and_true]
    refine ⟨h.cleared.push hpush, ?_⟩
    rw [toList_push hpush, h.toList]
  · have hfull : s.push a = .error (.stackOverflow a) := by
      have hle := s.depth_le
      exact push_eq_error_iff.mpr ⟨by omega, rfl⟩
    simp only [apply, applyList, hfull, if_neg hroom, and_true]
    exact h

theorem pop (h : Holds s l) :
    Holds (s.apply .pop).1 (applyList l .pop).1
    ∧ (s.apply .pop).2 = (applyList l .pop).2 := by
  cases hpop : s.pop? with
  | none =>
      have hnil : l = [] := h.toList.symm.trans (pop?_eq_none_iff.mp hpop)
      subst hnil
      simp only [apply, applyList, hpop, List.getLast?_nil, and_true]
      exact h
  | some r =>
      obtain ⟨a, t⟩ := r
      have hl : l = t.toList ++ [a] := h.toList.symm.trans (toList_of_pop? hpop)
      simp only [apply, applyList, hpop, hl, List.getLast?_concat, List.dropLast_concat, and_true]
      exact ⟨h.cleared.pop? hpop, rfl⟩

theorem apply (h : Holds s l) (op : Op) :
    Holds (s.apply op).1 (applyList l op).1 ∧ (s.apply op).2 = (applyList l op).2 := by
  cases op with
  | push a => exact h.push a
  | pop => exact h.pop

/-! ## A sequence of operations -/

theorem replay (h : Holds s l) (ops : List Op) :
    Holds (replay CallStack.apply s ops).1 (replay applyList l ops).1
    ∧ (replay CallStack.apply s ops).2 = (replay applyList l ops).2 := by
  induction ops generalizing s l with
  | nil => exact ⟨h, rfl⟩
  | cons op ops ih =>
      obtain ⟨hnext, hanswer⟩ := h.apply op
      obtain ⟨hlast, hanswers⟩ := ih hnext
      exact ⟨hlast, congr (congrArg _ hanswer) hanswers⟩

end Holds

/-- **The call stack is a list of at most sixteen addresses.** Whatever
sequence of pushes and pops a new stack is given, it answers as the list
does: a push onto fifteen or fewer succeeds, one onto sixteen is refused
with the address that did not fit, a pop takes the top or finds nothing.
The depth is the length of the list, the slots hold it from the bottom on
and are zero above it. So two sequences lead to the same slots and the same
depth exactly if they lead to the same list. -/
theorem behaves_as_list (ops : List Op) :
    let s := (replay apply empty ops).1
    let l := (replay applyList [] ops).1
    (replay apply empty ops).2 = (replay applyList [] ops).2
    ∧ (∀ a, s.push a = .error (.stackOverflow a) ↔ l.length = 16)
    ∧ (s.pop? = none ↔ l = [])
    ∧ l.length ≤ 16
    ∧ s.depth = l.length
    ∧ s.slots.toList = l ++ List.replicate (16 - l.length) 0
    ∧ ∀ ops', (replay apply empty ops').1 = s ↔ (replay applyList [] ops').1 = l := by
  intro s l
  obtain ⟨hholds, hanswers⟩ := holds_empty.replay ops
  have hlist : s.toList = l := hholds.toList
  have hdepth : s.depth = l.length := hholds.depth
  refine ⟨hanswers, ?_, ?_, hdepth ▸ s.depth_le, hdepth, hholds.slots, ?_⟩
  · intro a
    rw [push_eq_error_iff, hdepth, and_iff_left rfl]
  · rw [pop?_eq_none_iff, hlist]
  · intro ops'
    obtain ⟨hholds', -⟩ := holds_empty.replay ops'
    rw [← hlist, ← hholds'.toList]
    exact ⟨congrArg CallStack.toList, eq_of_toList_eq hholds'.cleared hholds.cleared⟩

end CallStack

end Chip8

import Chip8.Instruction.Image
import Chip8.Proofs.Access

/-!
# Straight-line programs

An instruction is straight if it always goes on with the one after it. A
program of such instructions runs from its first to its last: every cycle
ticks the clock and executes the instruction whose turn it is, as
`Machine.perform` does without a program in memory and without fetching.

That the two agree is an induction on how many cycles were run
(`arrived_of_spares`). It carries that the program is still where it was
loaded, which is why no instruction may write there.
-/

namespace Chip8

/-- The instruction goes on with the one after it, whatever the machine. -/
def Instruction.Straight : Instruction → Prop
  | ret | jump _ | call _ | skip _ | jumpOffset _ | awaitKey _ => False
  | _ => True

instance : DecidablePred Instruction.Straight
  | .ret | .jump _ | .call _ | .skip _ | .jumpOffset _ | .awaitKey _ =>
      inferInstanceAs (Decidable False)
  | .clear | .setByte _ _ | .addByte _ _ | .arith _ _ _ | .setIndex _ | .random _ _
  | .draw _ _ _ | .readDelay _ | .setDelay _ | .setSound _ | .addIndex _ | .glyph _
  | .decimal _ | .save _ | .restore _ => inferInstanceAs (Decidable True)

/-- Instructions, each with the time of its cycle. -/
abbrev Schedule := List (Time × Instruction)

namespace Schedule

def image (l : Schedule) : List UInt8 := Instruction.assemble (l.map Prod.snd)

def cycles (l : Schedule) : List Machine.Action := l.map fun s => .cycle s.1

theorem length_image (l : Schedule) : l.image.length = 2 * l.length := by
  simp [image]

theorem getElem?_image {l : Schedule} {k : Nat} {t : Time} {i : Instruction}
    (h : l[k]? = some (t, i)) :
    l.image[2 * k]? = some i.encode.high ∧ l.image[2 * k + 1]? = some i.encode.low := by
  simp [image, Instruction.getElem?_assemble_high, Instruction.getElem?_assemble_low, h]

theorem take_succ_of_getElem? {l : Schedule} {k : Nat} {s : Time × Instruction}
    (h : l[k]? = some s) : l.take (k + 1) = l.take k ++ [s] := by
  rw [List.take_add_one, h, Option.toList_some]

end Schedule

namespace Machine

/-- The machine after each instruction was executed at its time, with
nothing fetched. -/
def perform (m : Machine) : Schedule → Machine
  | [] => m
  | (t, i) :: l => ((m.tick t).execute i).machine.perform l

theorem perform_append (m : Machine) (l₁ l₂ : Schedule) :
    m.perform (l₁ ++ l₂) = (m.perform l₁).perform l₂ := by
  induction l₁ generalizing m with
  | nil => rfl
  | cons s l ih => exact ih _

/-! ## One instruction -/

section Straight

variable {i : Instruction} (hi : i.Straight)
include hi

theorem execute_withPc (m : Machine) (a : Address) :
    ({ m with pc := a }.execute i).machine = { (m.execute i).machine with pc := a } := by
  cases i with
  | ret | jump _ | call _ | skip _ | jumpOffset _ | awaitKey _ => exact hi.elim
  | _ => rfl

theorem fault?_execute_of_straight (m : Machine) : (m.execute i).fault? = none := by
  rw [fault?_execute]
  cases i with
  | call _ => exact hi.elim
  | _ => rfl

/-- What a cycle does to a machine that is known but for its program counter. -/
theorem cycle_withPc (m : Machine) {a : Address} (t : Time)
    (hp : { m with pc := a }.peek = .ok i) :
    ({ m with pc := a }.cycle t).machine
        = { ((m.tick t).execute i).machine with pc := a + 2 }
      ∧ ({ m with pc := a }.cycle t).fault? = none := by
  constructor
  · rw [machine_cycle_of_peek t hp]
    exact execute_withPc hi (m.tick t) (a + 2)
  · rw [fault?_cycle_of_peek t hp]
    exact fault?_execute_of_straight hi _

end Straight

/-! ## The whole program -/

def codeAddress (k : Nat) : Address := UInt16.ofNat (0x200 + 2 * k)

theorem toNat_codeAddress {k : Nat} (h : k ≤ 1792) : (codeAddress k).toNat = 0x200 + 2 * k := by
  rw [codeAddress, UInt16.toNat_ofNat']
  omega

theorem codeAddress_succ (k : Nat) : codeAddress (k + 1) = codeAddress k + 2 := by
  refine UInt16.toNat_inj.mp ?_
  have h₂ : (2 : Address).toNat = 2 := rfl
  rw [UInt16.toNat_add, h₂, codeAddress, codeAddress, UInt16.toNat_ofNat', UInt16.toNat_ofNat']
  omega

/-- The instruction does not write into a program of `n` instructions. -/
def Spares (m : Machine) (i : Instruction) (n : Nat) : Prop :=
  ∀ s : Fin 4096, 0x200 ≤ s.val → s.val < 0x200 + 2 * n → ¬ Memory.InSpan m.index i.stores s

theorem Spares.of_stores_eq_zero {i : Instruction} (h : i.stores = 0) (m : Machine) (n : Nat) :
    m.Spares i n := by
  intro s _ _
  rw [h]
  exact Memory.not_inSpan_zero _ s

theorem Spares.of_apart {m : Machine} {i : Instruction} {n : Nat}
    (h : m.index.toNat + i.stores ≤ 0x200
      ∨ 0x200 + 2 * n ≤ m.index.toNat ∧ m.index.toNat + i.stores ≤ 4096) : m.Spares i n := by
  rintro s hle hlt ⟨j, hj, hs⟩
  omega

theorem Spares.holds {m : Machine} {i : Instruction} {l : Schedule} (h : m.Spares i l.length)
    (hm : m.memory.Holds 0x200 l.image) : (m.execute i).machine.memory.Holds 0x200 l.image := by
  intro s b hs hb
  obtain ⟨hlt, -⟩ := List.getElem?_eq_some_iff.mp hb
  rw [Schedule.length_image] at hlt
  rw [get_memory_execute (h s hs (by omega))]
  exact hm s b hs hb

/-- The machine after the first `k` cycles of its program. -/
def after (l : Schedule) (random : Generator) (created : Time) (k : Nat) : Machine :=
  (loaded l.image random created).run (Schedule.cycles (l.take k))

/-- The first `k` cycles succeeded and did what their instructions do, and
the program is still there. -/
structure Arrived (l : Schedule) (random : Generator) (created : Time) (k : Nat) : Prop where
  eq_perform : after l random created k
    = { (loaded l.image random created).perform (l.take k) with pc := codeAddress k }
  holds : (after l random created k).memory.Holds 0x200 l.image
  faults : (loaded l.image random created).faults (Schedule.cycles (l.take k))
    = List.replicate k none

section Program

variable {l : Schedule} {random : Generator} {created : Time} {k : Nat} {t : Time}
  {i : Instruction}

theorem after_succ (hget : l[k]? = some (t, i)) :
    after l random created (k + 1) = ((after l random created k).cycle t).machine := by
  rw [after, Schedule.take_succ_of_getElem? hget, Schedule.cycles, List.map_append, run_append]
  rfl

theorem exists_after_of_mem_cycled {n : Machine}
    (h : n ∈ (loaded l.image random created).cycled l.cycles) :
    ∃ k t i, l[k]? = some (t, i) ∧ n = after l random created k := by
  obtain ⟨k, _, hk, rfl⟩ := exists_of_mem_cycled h
  rw [Schedule.cycles, List.getElem?_map, Option.map_eq_some_iff] at hk
  obtain ⟨⟨t, i⟩, hget, -⟩ := hk
  refine ⟨k, t, i, hget, ?_⟩
  rw [after, Schedule.cycles, Schedule.cycles, List.map_take]

namespace Arrived

theorem zero : Arrived l random created 0 := ⟨rfl, Memory.holds_place _ _ _, rfl⟩

theorem toNat_pc (h : Arrived l random created k) (hk : k ≤ 1792) :
    (after l random created k).pc.toNat = 0x200 + 2 * k := by
  rw [h.eq_perform]
  exact toNat_codeAddress hk

theorem peek (h : Arrived l random created k) (hk : k < 1792) (hget : l[k]? = some (t, i))
    (hwf : i.WellFormed) : (after l random created k).peek = .ok i := by
  obtain ⟨hhigh, hlow⟩ := Schedule.getElem?_image hget
  refine peek_of_holds h.holds (2 * k) (h.toNat_pc (Nat.le_of_lt hk)) (by omega) hhigh hlow ?_
  rw [Word.ofBytes_high_low]
  exact Instruction.decode?_encode hwf

theorem succ (h : Arrived l random created k) (hk : k < 1792) (hget : l[k]? = some (t, i))
    (hwf : i.WellFormed) (hi : i.Straight) (hs : (after l random created k).Spares i l.length) :
    Arrived l random created (k + 1) := by
  have hp := h.peek hk hget hwf
  obtain ⟨hmachine, hfault⟩ := cycle_withPc hi _ t (h.eq_perform ▸ hp)
  rw [← h.eq_perform] at hmachine hfault
  refine ⟨?_, ?_, ?_⟩
  -- a straight instruction ignores the program counter, so the last one is all
  -- that has to be put in
  · rw [after_succ hget, hmachine, Schedule.take_succ_of_getElem? hget, perform_append,
      codeAddress_succ]
    rfl
  · have hs' : ((after l random created k).tick t).stepOver.Spares i l.length := hs
    rw [after_succ hget, machine_cycle_of_peek t hp]
    exact hs'.holds h.holds
  · rw [Schedule.take_succ_of_getElem? hget, Schedule.cycles, List.map_append, faults_append]
    exact List.replicate_succ' ▸ congrArg₂ (· ++ ·) h.faults (congrArg ([·]) hfault)

end Arrived

/-- Straight instructions are executed one after the other as long as none
of them writes into the program. -/
theorem arrived_of_spares (hlen : l.length ≤ 1792)
    (hl : ∀ s ∈ l, s.2.WellFormed ∧ s.2.Straight) (hk : k ≤ l.length)
    (hs : ∀ j t i, j < k → l[j]? = some (t, i) → (after l random created j).Spares i l.length) :
    Arrived l random created k := by
  induction k with
  | zero => exact Arrived.zero
  | succ k ih =>
      obtain ⟨⟨t, i⟩, hget⟩ : ∃ s, l[k]? = some s := ⟨_, List.getElem?_eq_getElem hk⟩
      obtain ⟨hwf, hi⟩ := hl _ (List.mem_of_getElem? hget)
      have hprev := ih (Nat.le_of_succ_le hk) fun j t i hj => hs j t i (Nat.lt_succ_of_lt hj)
      exact hprev.succ (Nat.lt_of_lt_of_le hk hlen) hget hwf hi (hs k t i (Nat.lt_succ_self k) hget)

theorem arrived_of_stores_eq_zero (hlen : l.length ≤ 1792)
    (hl : ∀ s ∈ l, s.2.WellFormed ∧ s.2.Straight) (hk : k ≤ l.length)
    (hs : ∀ s ∈ l.take k, s.2.stores = 0) : Arrived l random created k := by
  refine arrived_of_spares hlen hl hk fun j t i hj hget => Spares.of_stores_eq_zero ?_ _ _
  exact hs (t, i) (List.mem_of_getElem? ((List.getElem?_take_of_lt hj).trans hget))

theorem arrived_of_never_stores (hlen : l.length ≤ 1792)
    (hl : ∀ s ∈ l, s.2.WellFormed ∧ s.2.Straight) (hs : ∀ s ∈ l, s.2.stores = 0)
    (hk : k ≤ l.length) : Arrived l random created k :=
  arrived_of_stores_eq_zero hlen hl hk fun s hmem => hs s (List.mem_of_mem_take hmem)

theorem executed_of_arrived (hlen : l.length ≤ 1792) (hl : ∀ s ∈ l, s.2.WellFormed)
    (hk : k ≤ l.length) (h : ∀ j < k, Arrived l random created j) :
    (loaded l.image random created).executed (Schedule.cycles (l.take k))
      = (l.take k).map Prod.snd := by
  induction k with
  | zero => rfl
  | succ k ih =>
      obtain ⟨⟨t, i⟩, hget⟩ : ∃ s, l[k]? = some s := ⟨_, List.getElem?_eq_getElem hk⟩
      have hprev := ih (Nat.le_of_succ_le hk) fun j hj => h j (Nat.lt_succ_of_lt hj)
      have hp : (after l random created k).peek = .ok i :=
        (h k (Nat.lt_succ_self k)).peek (Nat.lt_of_lt_of_le hk hlen) hget
          (hl _ (List.mem_of_getElem? hget))
      rw [Schedule.take_succ_of_getElem? hget, Schedule.cycles, List.map_append, executed_append,
        List.map_append]
      exact congrArg₂ (· ++ ·) hprev (executed_cycle_cons t [] hp)

/-- **A straight-line program does what its instructions do in order.** It
can be loaded, none of its cycles fails, and after any number of them the
machine is the one on which the clock was ticked and the instruction
executed that often, with the program counter at the next instruction. All
it takes is that no instruction, when its turn comes, writes into the
program. -/
theorem run_image (hlen : 1 ≤ l.length ∧ l.length ≤ 1792)
    (hl : ∀ s ∈ l, s.2.WellFormed ∧ s.2.Straight)
    (hs : ∀ k t i, l[k]? = some (t, i) → (after l random created k).Spares i l.length) :
    let m := loaded l.image random created
    load l.image random created = .ok m
      ∧ m.faults l.cycles = List.replicate l.length none
      ∧ ∀ k ≤ l.length,
          let last := m.run (Schedule.cycles (l.take k))
          last = { m.perform (l.take k) with pc := last.pc } ∧ last.pc.toNat = 0x200 + 2 * k := by
  intro m
  have harrived : ∀ k ≤ l.length, Arrived l random created k := fun k hk =>
    arrived_of_spares hlen.2 hl hk fun j t i _ => hs j t i
  refine ⟨?_, ?_, ?_⟩
  · refine load_eq_ok_iff.mpr ⟨?_, rfl⟩
    rw [Schedule.length_image]
    omega
  · have h := (harrived l.length (Nat.le_refl _)).faults
    rwa [List.take_length] at h
  · intro k hk
    have h := harrived k hk
    have hpc := h.toNat_pc (Nat.le_trans hk hlen.2)
    refine ⟨?_, hpc⟩
    have hrun : m.run (Schedule.cycles (l.take k)) = _ := h.eq_perform
    rw [hrun]

end Program

/-- Writes the digits of a byte behind the program, reads them back and
draws them. -/
private def digitsSchedule : Schedule :=
  [(0, .setByte .first 0xAB), (5, .setIndex 0x300), (20000000, .decimal .first),
    (3, .restore .flag), (40000000, .draw .first .flag 5)]

theorem run_image_of_digits :
    let l := digitsSchedule
    let m := loaded l.image (.ofSeed 7) 0
    ((1 ≤ l.length ∧ l.length ≤ 1792)
      ∧ (∀ s ∈ l, s.2.WellFormed ∧ s.2.Straight)
      ∧ ∀ k t i, l[k]? = some (t, i) → (after l (.ofSeed 7) 0 k).Spares i l.length)
    ∧ load l.image (.ofSeed 7) 0 = .ok m
    ∧ m.faults l.cycles = List.replicate 5 none
    ∧ (m.run l.cycles).pc.toNat = 0x20A := by
  intro l m
  have hlen : 1 ≤ l.length ∧ l.length ≤ 1792 := by decide
  have hl : ∀ s ∈ l, s.2.WellFormed ∧ s.2.Straight := by decide
  -- before the third instruction, which is the only one that writes
  have harrived : Arrived l (.ofSeed 7) 0 2 :=
    arrived_of_stores_eq_zero hlen.2 hl (by decide) (by decide)
  have hindex : (after l (.ofSeed 7) 0 2).index = 0x300 := by
    rw [harrived.eq_perform]
    rfl
  have hs : ∀ k t i, l[k]? = some (t, i) → (after l (.ofSeed 7) 0 k).Spares i l.length := by
    rintro (_ | _ | _ | _ | _ | k) t i hget
    case succ.succ.zero =>
      cases hget
      refine Spares.of_apart (Or.inr ?_)
      rw [hindex]
      decide
    case succ.succ.succ.succ.succ => cases hget
    all_goals
      cases hget
      exact Spares.of_stores_eq_zero rfl _ _
  obtain ⟨hload, hfaults, hrun⟩ := run_image hlen hl hs
  exact ⟨⟨hlen, hl, hs⟩, hload, hfaults, (hrun 5 (by decide)).2⟩

end Machine

end Chip8

import Mathlib.Data.List.DropRight
import Mathlib.Order.Bounds.Defs
import Chip8.Proofs.Frame
import Chip8.Proofs.Trace

/-!
# A keypad is a set of keys

All that can be asked of a keypad is answered by which keys are down, and on
one that was made from a list of codes these are the keys in the list
(`Keypad.isDown_ofCodes_iff`). The order of the list and codes that come twice
leave no trace, codes of no key one line each in the log
(`Machine.lines_setKeys`).

A machine's keypad is made from the last list that it was given. Cycles do
not touch it and no earlier list shows through (`Machine.keypad_run`, by
induction on the last action).
-/

namespace Chip8

namespace Keypad

theorem ofCodes_eq_iff {codes codes' : List UInt8} :
    ofCodes codes = ofCodes codes' ↔ ∀ c, c.toNat < 16 → (c ∈ codes ↔ c ∈ codes') := by
  constructor
  · intro h c hc
    have hdown : (ofCodes codes).isDown c ↔ (ofCodes codes').isDown c := by rw [h]
    rw [isDown_ofCodes_iff, isDown_ofCodes_iff] at hdown
    exact and_congr_right_iff.mp hdown hc
  · intro h
    refine ext_isDown fun c => Bool.eq_iff_iff.mpr ?_
    rw [isDown_ofCodes_iff, isDown_ofCodes_iff]
    exact and_congr_right (h c)

theorem up_ofCodes_iff {codes : List UInt8} :
    (∀ c, ¬ (ofCodes codes).isDown c) ↔ ∀ c ∈ codes, 16 ≤ c.toNat := by
  simp only [isDown_ofCodes_iff, IsKey, not_and', Nat.not_lt]

theorem strayCodes_eq (codes : List UInt8) : strayCodes codes = codes.filter (0xF < ·) := by
  refine List.filter_congr fun c _ => decide_eq_decide.mpr ?_
  rw [IsKey, Nat.not_lt, UInt8.lt_iff_toNat_lt]
  exact Iff.rfl

end Keypad

namespace Machine

/-! ## What is logged -/

/-- The line that names a code of no key. -/
def strayLine (c : UInt8) : String := "WARN Ignoring out of range key code " ++ Hex.byte c

theorem line_strayKey (c : UInt8) : (Event.strayKey c).line = strayLine c := by
  have hname : "WARN" ++ " " ++ "Ignoring out of range key code "
      = "WARN Ignoring out of range key code " := by decide
  have hline : (Event.strayKey c).line
      = "WARN" ++ " " ++ ("Ignoring out of range key code " ++ Hex.byte c) := rfl
  unfold strayLine
  rw [hline, ← hname]
  simp only [String.append_assoc]

/-- No threshold is above a warning. -/
theorem lines_setKeys (m : Machine) (codes : List UInt8) (threshold : Severity) :
    (m.setKeys codes).lines threshold = (codes.filter (0xF < ·)).map strayLine := by
  have hvisible : ∀ e ∈ (m.setKeys codes).events, decide (e.Visible threshold) = true := by
    intro e he
    obtain ⟨c, -, rfl⟩ := List.mem_map.mp he
    cases threshold <;> rfl
  rw [Outcome.lines, List.filter_eq_self.mpr hvisible, ← Keypad.strayCodes_eq]
  show ((Keypad.strayCodes codes).map Event.strayKey).map Event.line = _
  rw [List.map_map]
  exact List.map_congr_left fun c _ => line_strayKey c

/-! ## The keypad of a run -/

def Action.codes? : Action → Option (List UInt8)
  | .cycle _ => none
  | .setKeys codes => some codes

/-- The last list of codes that comes with the actions. -/
def lastCodes? (l : List Action) : Option (List UInt8) := (l.filterMap Action.codes?).getLast?

theorem keypad_run (m : Machine) (l : List Action) :
    (m.run l).keypad = match lastCodes? l with
      | some codes => .ofCodes codes
      | none => m.keypad := by
  induction l using List.reverseRecOn with
  | nil => rfl
  | append_singleton l a ih =>
      have hcodes : (l ++ [a]).filterMap Action.codes? = l.filterMap Action.codes?
          ++ a.codes?.toList := by
        cases a <;> simp [Action.codes?]
      rw [run_append, lastCodes?, hcodes]
      cases a with
      | cycle t =>
          rw [run_cons, run_nil, act, keypad_cycle, ih]
          simp [Action.codes?, lastCodes?]
      | setKeys codes => simp [Action.codes?, act, setKeys]

/-- **A keypad is the set of the keys in a list.** The keys that are down are
the codes below sixteen that are in the list, however often and in whatever
order, and that is what every view of the keypad shows: their ascending list,
the lowest of them, whether there is one at all, and whether two keypads are
the same. Each code of no key is logged once for each time it occurs, in the
order of the list. The keypad of a machine is the one of the last list that
it was given, and before the first no key is down. -/
theorem keypad_is_set (codes : List UInt8) :
    (∀ c, (Keypad.ofCodes codes).isDown c = true ↔ c.toNat < 16 ∧ c ∈ codes)
    ∧ ((Keypad.ofCodes codes).toList.Pairwise (· < ·)
        ∧ ∀ c, c ∈ (Keypad.ofCodes codes).toList ↔ c.toNat < 16 ∧ c ∈ codes)
    ∧ (∀ c, (Keypad.ofCodes codes).first? = some c ↔ IsLeast {c | c.toNat < 16 ∧ c ∈ codes} c)
    ∧ ((Keypad.ofCodes codes).first? = none ↔ ∀ c ∈ codes, 16 ≤ c.toNat)
    ∧ ((Keypad.ofCodes codes).isEmpty = true ↔ ∀ c ∈ codes, 16 ≤ c.toNat)
    ∧ (∀ codes', Keypad.ofCodes codes = .ofCodes codes' ↔
        ∀ c, c.toNat < 16 → (c ∈ codes ↔ c ∈ codes'))
    ∧ (∀ (m : Machine) (threshold : Severity),
        (m.setKeys codes).machine.keypad = .ofCodes codes
        ∧ (m.setKeys codes).lines threshold = (codes.filter (0xF < ·)).map strayLine)
    ∧ ∀ program random created m l, load program random created = .ok m →
        (m.run l).keypad = .ofCodes ((lastCodes? l).getD []) := by
  have hdown : ∀ c, (Keypad.ofCodes codes).isDown c = true ↔ c.toNat < 16 ∧ c ∈ codes := fun c =>
    Keypad.isDown_ofCodes_iff
  refine ⟨hdown, ⟨Keypad.pairwise_toList _, ?_⟩, ?_, ?_, ?_, ?_, ?_, ?_⟩
  · exact fun c => Keypad.mem_toList.trans (hdown c)
  · intro c
    rw [Keypad.first?_eq_some_iff]
    simp only [hdown]
    exact Iff.rfl
  · exact Keypad.first?_eq_none_iff.trans Keypad.up_ofCodes_iff
  · exact Keypad.isEmpty_iff.trans Keypad.up_ofCodes_iff
  · exact fun codes' => Keypad.ofCodes_eq_iff
  · exact fun m threshold => ⟨rfl, m.lines_setKeys codes threshold⟩
  · intro program random created m l hm
    obtain ⟨-, rfl⟩ := load_eq_ok_iff.mp hm
    rw [keypad_run]
    cases lastCodes? l <;> rfl

/-- A key that comes twice and two codes of no key, given to a machine that
was given another key before. -/
theorem keypad_is_set_of_repeated :
    let codes : List UInt8 := [0x10, 7, 3, 7, 0xFF]
    let m := loaded [0xF3, 0x0A] (.ofSeed 0) 0
    let l := [.setKeys [1, 3], .cycle 0, .setKeys codes, .cycle 20000000]
    load [0xF3, 0x0A] (.ofSeed 0) 0 = .ok m
    ∧ (m.run l).keypad = .ofCodes codes
    ∧ (Keypad.ofCodes codes).first? = some 3
    ∧ Keypad.ofCodes codes = .ofCodes [3, 7]
    ∧ (m.setKeys codes).lines .warn
        = ["WARN Ignoring out of range key code 0x10", "WARN Ignoring out of range key code 0xFF"] := by
  intro codes m l
  have hm : load [0xF3, 0x0A] (.ofSeed 0) 0 = .ok m := load_eq_ok_iff.mpr ⟨by decide, rfl⟩
  obtain ⟨-, -, hfirst, -, -, hsame, hlogged, hrun⟩ := keypad_is_set codes
  have hkeys : ∀ c, c.toNat < 16 → (c ∈ codes ↔ c = 3 ∨ c = 7) := by
    intro c hlt
    simp only [codes, List.mem_cons, List.not_mem_nil, or_false]
    constructor
    · rintro (rfl | rfl | rfl | rfl | rfl)
      · exact absurd hlt (by decide)
      · exact Or.inr rfl
      · exact Or.inl rfl
      · exact Or.inr rfl
      · exact absurd hlt (by decide)
    · rintro (rfl | rfl) <;> simp
  refine ⟨hm, hrun _ _ _ m l hm, (hfirst 3).mpr ⟨⟨by decide, by decide⟩, ?_⟩,
    (hsame [3, 7]).mpr fun c hlt => (hkeys c hlt).trans (by simp), ?_⟩
  · rintro c ⟨hlt, hc⟩
    rcases (hkeys c hlt).mp hc with rfl | rfl <;> decide
  · rw [(hlogged m .warn).2]
    decide +kernel

end Machine

end Chip8

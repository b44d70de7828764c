/-!
# The keypad

Sixteen keys, each up or down; key `k` is bit `k`. A keypad is a snapshot: it
is made from a list of key codes and never changes.
-/

namespace Chip8

structure Keypad where
  down : BitVec 16
deriving Repr, DecidableEq

namespace Keypad

/-- No key is down. -/
def none : Keypad := ⟨0⟩

instance : Inhabited Keypad := ⟨none⟩

/-- There is a key with this code. -/
def IsKey (code : UInt8) : Prop := code.toNat < 16

instance : DecidablePred IsKey := fun code => by
  unfold IsKey; infer_instance

def press (k : Keypad) (code : UInt8) : Keypad :=
  if IsKey code then ⟨k.down ||| (1#16 <<< code.toNat)⟩ else k

/-- The keypad on which the keys of the list are down. -/
def ofCodes (codes : List UInt8) : Keypad := codes.foldl press none

/-- The codes of the list that belong to no key. -/
def strayCodes (codes : List UInt8) : List UInt8 := codes.filter fun c => ¬ IsKey c

/-- A code of no key is never down. -/
def isDown (k : Keypad) (code : UInt8) : Bool := k.down.getLsbD code.toNat

/-- All keys, in ascending order. -/
def allCodes : List UInt8 := (List.range 16).map UInt8.ofNat

/-- The keys that are down, in ascending order. -/
def toList (k : Keypad) : List UInt8 := allCodes.filter k.isDown

/-- The lowest key that is down. -/
def first? (k : Keypad) : Option UInt8 := allCodes.find? k.isDown

def isEmpty (k : Keypad) : Bool := k.down == 0

/-- The keys that are down as a set of numbers. -/
def text (k : Keypad) : String :=
  "\x7b" ++ ", ".intercalate (k.toList.map fun c => toString c.toNat) ++ "\x7d"

@[simp] theorem isDown_none (code : UInt8) : none.isDown code = false := by
  simp [none, isDown]

theorem isDown_press (k : Keypad) (code c : UInt8) :
    (k.press code).isDown c = (k.isDown c || decide (IsKey code ∧ c = code)) := by
  unfold press
  by_cases h : IsKey code
  · have hlt : code.toNat < 16 := h
    simp only [h, ↓reduceIte, isDown, BitVec.getLsbD_or, true_and]
    congr 1
    rw [← BitVec.twoPow_eq, BitVec.getLsbD_twoPow]
    simp [hlt, ← UInt8.toNat_inj, eq_comm]
  · simp [h]

theorem isDown_foldl_press (codes : List UInt8) (k : Keypad) (c : UInt8) :
    (codes.foldl press k).isDown c = (k.isDown c || decide (IsKey c ∧ c ∈ codes)) := by
  induction codes generalizing k with
  | nil => simp
  | cons a l ih =>
    rw [List.foldl_cons, ih, isDown_press]
    by_cases hca : c = a
    · subst hca
      by_cases hk : IsKey c <;> simp [hk]
    · simp [hca]

theorem isDown_ofCodes (codes : List UInt8) (c : UInt8) :
    (ofCodes codes).isDown c = decide (IsKey c ∧ c ∈ codes) := by
  simp [ofCodes, isDown_foldl_press]

theorem isDown_ofCodes_iff {codes : List UInt8} {c : UInt8} :
    (ofCodes codes).isDown c ↔ IsKey c ∧ c ∈ codes := by
  rw [isDown_ofCodes, decide_eq_true_iff]

theorem isKey_of_isDown {k : Keypad} {c : UInt8} (h : k.isDown c) : IsKey c := by
  refine Decidable.byContradiction fun hk => ?_
  rw [isDown, BitVec.getLsbD_of_ge _ _ (Nat.le_of_not_lt hk)] at h
  cases h

theorem mem_allCodes {c : UInt8} : c ∈ allCodes ↔ IsKey c := by
  simp only [allCodes, List.mem_map, List.mem_range, IsKey]
  constructor
  · rintro ⟨n, hn, rfl⟩
    rw [UInt8.toNat_ofNat']
    omega
  · exact fun h => ⟨c.toNat, h, UInt8.ofNat_toNat⟩

theorem mem_toList {k : Keypad} {c : UInt8} : c ∈ k.toList ↔ k.isDown c := by
  rw [toList, List.mem_filter, mem_allCodes]
  exact ⟨fun h => h.2, fun h => ⟨isKey_of_isDown h, h⟩⟩

theorem pairwise_toList (k : Keypad) : k.toList.Pairwise (· < ·) := by
  have hall : allCodes.Pairwise (· < ·) := by decide
  exact hall.filter k.isDown

theorem ext_isDown {k k' : Keypad} (h : ∀ c, k.isDown c = k'.isDown c) : k = k' := by
  have hdown : k.down = k'.down := by
    refine BitVec.eq_of_getLsbD_eq fun i hi => ?_
    have hc := h (UInt8.ofNat i)
    simp only [isDown, UInt8.toNat_ofNat'] at hc
    rwa [Nat.mod_eq_of_lt (by omega)] at hc
  exact congrArg Keypad.mk hdown

theorem ofCodes_eq_none {codes : List UInt8} (h : ∀ c ∈ codes, ¬ IsKey c) :
    ofCodes codes = none := by
  refine ext_isDown fun c => ?_
  rw [isDown_ofCodes, isDown_none, decide_eq_false_iff_not]
  exact fun hc => h c hc.2 hc.1

theorem eq_none_of_isEmpty {k : Keypad} (h : k.isEmpty) : k = none :=
  congrArg Keypad.mk (eq_of_beq h)

theorem isEmpty_iff {k : Keypad} : k.isEmpty ↔ ∀ c, ¬ k.isDown c := by
  constructor
  · intro h c
    rw [eq_none_of_isEmpty h, isDown_none]
    exact Bool.false_ne_true
  · intro h
    have hk : k = none := ext_isDown fun c => by rw [Bool.eq_false_iff.mpr (h c), isDown_none]
    rw [hk]
    rfl

theorem first?_eq_none_iff {k : Keypad} : k.first? = Option.none ↔ ∀ c, ¬ k.isDown c := by
  rw [first?, List.find?_eq_none]
  exact ⟨fun h c hc => h c (mem_allCodes.mpr (isKey_of_isDown hc)) hc, fun h c _ => h c⟩

theorem toList_eq_nil_iff {k : Keypad} : k.toList = [] ↔ k.first? = Option.none := by
  rw [first?_eq_none_iff, List.eq_nil_iff_forall_not_mem]
  simp only [mem_toList]

theorem le_of_first? {k : Keypad} {c d : UInt8} (hc : k.first? = some c) (hd : k.isDown d) :
    c ≤ d := by
  have hsorted : allCodes.Pairwise (· ≤ ·) := by decide
  obtain ⟨-, before, after, hall, hup⟩ := List.find?_eq_some_iff_append.mp hc
  -- the keys before the first one that is down are up
  have hmem := mem_allCodes.mpr (isKey_of_isDown hd)
  rw [hall, List.mem_append, List.mem_cons] at hmem
  rw [hall] at hsorted
  rcases hmem with hbefore | rfl | hafter
  · have hnot : ¬ k.isDown d := by simpa using hup d hbefore
    exact absurd hd hnot
  · exact UInt8.le_refl _
  · exact (List.pairwise_cons.mp (List.pairwise_append.mp hsorted).2.1).1 d hafter

theorem first?_eq_some_iff {k : Keypad} {c : UInt8} :
    k.first? = some c ↔ k.isDown c ∧ ∀ d, k.isDown d → c ≤ d := by
  constructor
  · exact fun h => ⟨List.find?_some h, fun d => le_of_first? h⟩
  · rintro ⟨hc, hle⟩
    cases hfirst : k.first? with
    | none => exact absurd hc (first?_eq_none_iff.mp hfirst c)
    | some d =>
      have hd : k.isDown d := List.find?_some hfirst
      exact congrArg some (UInt8.le_antisymm (le_of_first? hfirst hc) (hle d hd))

end Keypad

end Chip8

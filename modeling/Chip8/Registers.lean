import Chip8.Word

/-!
# Registers

Sixteen bytes. The last register doubles as the flag of an instruction but is
otherwise an ordinary one.
-/

namespace Chip8

structure Registers where
  bytes : Vector UInt8 16
deriving Repr, DecidableEq

namespace Registers

def zero : Registers := ⟨Vector.replicate 16 0⟩

instance : Inhabited Registers := ⟨zero⟩

def get (v : Registers) (r : Register) : UInt8 := v.bytes[r]

def set (v : Registers) (r : Register) (b : UInt8) : Registers := ⟨v.bytes.set r b⟩

/-- Writes one or zero into the flag register. -/
def setFlag (v : Registers) (flag : Bool) : Registers :=
  v.set Register.flag (if flag then 1 else 0)

/-- Writes a list of bytes into the registers from `r` on; bytes for which there
is no register are dropped. -/
def setFrom (v : Registers) (i : Nat) : List UInt8 → Registers
  | [] => v
  | b :: l => setFrom ⟨v.bytes.setIfInBounds i b⟩ (i + 1) l

def toList (v : Registers) : List UInt8 := v.bytes.toList

/-- The bytes of the registers up to and including `r`. -/
def takeTo (v : Registers) (r : Register) : List UInt8 := r.upTo.map v.get

theorem get_set (v : Registers) (r s : Register) (b : UInt8) :
    (v.set r b).get s = if s = r then b else v.get s := by
  by_cases h : s = r
  · simp [get, set, h]
  · have hv : r.val ≠ s.val := fun e => h (Fin.ext e.symm)
    simp [get, set, h, hv]

@[simp] theorem get_set_self (v : Registers) (r : Register) (b : UInt8) :
    (v.set r b).get r = b := by
  simp [get_set]

@[simp] theorem get_set_of_ne (v : Registers) {r s : Register} (b : UInt8) (h : s ≠ r) :
    (v.set r b).get s = v.get s := by
  simp [get_set, h]

@[simp] theorem get_setFlag_of_ne (v : Registers) {r : Register} (flag : Bool)
    (h : r ≠ Register.flag) : (v.setFlag flag).get r = v.get r :=
  get_set_of_ne v _ h

theorem get_setFlag_eq_one_iff (v : Registers) (flag : Bool) :
    (v.setFlag flag).get Register.flag = 1 ↔ flag = true := by
  cases flag <;> simp [setFlag]

theorem get_setFlag_eq_zero_iff (v : Registers) (flag : Bool) :
    (v.setFlag flag).get Register.flag = 0 ↔ flag = false := by
  cases flag <;> simp [setFlag]

theorem get_setFrom (v : Registers) (i : Nat) (l : List UInt8) (r : Register) :
    (v.setFrom i l).get r
      = if i ≤ r.val then l[r.val - i]?.getD (v.get r) else v.get r := by
  induction l generalizing v i with
  | nil => simp [setFrom]
  | cons b l ih =>
      rw [setFrom, ih]
      rcases Nat.lt_trichotomy i r.val with hlt | heq | hgt
      · have h₁ : i + 1 ≤ r.val := hlt
        have h₂ : r.val - i = r.val - (i + 1) + 1 := by omega
        have hne : i ≠ r.val := Nat.ne_of_lt hlt
        simp [h₁, Nat.le_of_lt hlt, h₂, get, hne]
      · have h₁ : ¬ r.val + 1 ≤ r.val := by omega
        simp [heq, h₁, get]
      · have h₁ : ¬ i + 1 ≤ r.val := by omega
        have h₂ : ¬ i ≤ r.val := by omega
        have hne : i ≠ r.val := Nat.ne_of_gt hgt
        simp [h₁, h₂, get, hne]

theorem get_setFrom_zero (v : Registers) (l : List UInt8) (r : Register) :
    (v.setFrom 0 l).get r = l[r.val]?.getD (v.get r) := by
  rw [get_setFrom, if_pos (Nat.zero_le _), Nat.sub_zero]

@[simp] theorem length_takeTo (v : Registers) (x : Register) :
    (v.takeTo x).length = x.val + 1 := by
  simp [takeTo]

theorem getElem?_takeTo (v : Registers) {r x : Register} (h : r ≤ x) :
    (v.takeTo x)[r.val]? = some (v.get r) := by
  have hr : r.val < x.val + 1 := Nat.lt_succ_of_le h
  simp [takeTo, Register.upTo, List.getElem?_take_of_lt hr]

theorem takeTo_setFrom (v : Registers) {x : Register} {l : List UInt8}
    (h : l.length = x.val + 1) : (v.setFrom 0 l).takeTo x = l := by
  refine List.ext_getElem (by rw [length_takeTo, h]) fun k hk hl => ?_
  rw [length_takeTo] at hk
  have hr : (⟨k, by omega⟩ : Register) ≤ x := Nat.le_of_lt_succ hk
  have hget := getElem?_takeTo (v.setFrom 0 l) hr
  rw [get_setFrom_zero, List.getElem?_eq_getElem hl, Option.getD_some] at hget
  exact (List.getElem?_eq_some_iff.mp hget).2

theorem ext_get {v w : Registers} (h : ∀ r, v.get r = w.get r) : v = w := by
  have hbytes : v.bytes = w.bytes := Vector.ext fun k hk => h ⟨k, hk⟩
  exact congrArg Registers.mk hbytes

end Registers

end Chip8

import Chip8.Instruction.RoundTrip
import Chip8.Proofs.Frame

/-!
# Arithmetic with a flag

A register holds the value of an operation modulo 256, and the flag is what
the value leaves out: the carry of a sum, the missing borrow of a
difference, the bit that a shift moves out. `Arith.Exact` puts the two
together again, and `Arith.exact_result` says that nothing is lost.

Both are made from the operands as they were, and the flag is written last.
So this holds for operands that are the flag register, and where the target
is the flag register the flag is what stays (`Arith.exact_apply`).
-/

namespace Chip8

namespace Arith

/-! ## Bytes -/

/-- The flag of an operation on two bytes, as a number. -/
def flagNumber (a b : Nat) : Arith → Nat
  | add => (a + b) / 256
  | sub => if b ≤ a then 1 else 0
  | subFrom => if a ≤ b then 1 else 0
  | shiftRight => b % 2
  | shiftLeft => b / 128
  | copy | or | and | xor => 0

/-- The value `r` and the flag `f` together are the exact result of an
operation on two bytes. A borrow, which is a flag of zero, stands for 256
added to what is subtracted from. -/
def Exact (a b r f : Nat) : Arith → Prop
  | add => 256 * f + r = a + b
  | sub => r + b = a + 256 * (1 - f)
  | subFrom => r + a = b + 256 * (1 - f)
  | shiftRight => 2 * r + f = b
  | shiftLeft => 256 * f + r = 2 * b
  | copy | or | and | xor => True

theorem toNat_flag {op : Arith} {a b : UInt8} {flag : Bool} (h : op.flag? a b = some flag) :
    (if flag then 1 else 0) = op.flagNumber a.toNat b.toNat := by
  have ha := a.toNat_lt
  have hb := b.toNat_lt
  cases op with
  | copy | or | and | xor => cases h
  | add | shiftRight | shiftLeft =>
      cases h
      simp only [decide_eq_true_eq, flagNumber]
      split <;> omega
  | sub | subFrom =>
      cases h
      simp only [decide_eq_true_eq, flagNumber]

theorem toNat_sub_add (a b : UInt8) :
    (a - b).toNat + b.toNat = a.toNat + 256 * (1 - if b.toNat ≤ a.toNat then 1 else 0) := by
  have ha := a.toNat_lt
  have hb := b.toNat_lt
  rw [UInt8.toNat_sub]
  split <;> omega

theorem exact_result (op : Arith) (a b : UInt8) :
    op.Exact a.toNat b.toNat (op.result a b).toNat (op.flagNumber a.toNat b.toNat) := by
  have ha := a.toNat_lt
  have hb := b.toNat_lt
  cases op with
  | copy | or | and | xor => trivial
  | add =>
      show 256 * ((a.toNat + b.toNat) / 256) + (a + b).toNat = a.toNat + b.toNat
      rw [UInt8.toNat_add]
      omega
  | sub => exact toNat_sub_add a b
  | subFrom => exact toNat_sub_add b a
  | shiftRight =>
      have hvalue : (b >>> 1).toNat = b.toNat / 2 := UInt8.toNat_shiftRight b 1
      show 2 * (b >>> 1).toNat + b.toNat % 2 = b.toNat
      rw [hvalue]
      omega
  | shiftLeft =>
      have hvalue : (b <<< 1).toNat = 2 * b.toNat % 256 := by
        rw [UInt8.toNat_shiftLeft, Nat.shiftLeft_eq, Nat.mul_comm]
        rfl
      show 256 * (b.toNat / 128) + (b <<< 1).toNat = 2 * b.toNat
      rw [hvalue]
      omega

/-! ## Registers -/

theorem exists_flag {op : Arith} (h : op.HasFlag) (a b : UInt8) :
    ∃ flag, op.flag? a b = some flag := by
  cases op with
  | copy | or | and | xor => exact h.elim
  | _ => exact ⟨_, rfl⟩

theorem exact_apply {op : Arith} (h : op.HasFlag) (x y : Register) (v : Registers) :
    let a := (v.get x).toNat
    let b := (v.get y).toNat
    let w := op.apply x y v
    (w.get .flag).toNat = op.flagNumber a b
    ∧ (x ≠ .flag → op.Exact a b (w.get x).toNat (w.get .flag).toNat) := by
  intro a b w
  obtain ⟨flag, hflag⟩ := exists_flag h (v.get x) (v.get y)
  have hw : w = (v.set x (op.result (v.get x) (v.get y))).setFlag flag := by
    simp only [w, apply, hflag]
  have hnumber : (w.get .flag).toNat = op.flagNumber a b := by
    rw [← toNat_flag hflag, hw, Registers.setFlag, Registers.get_set_self]
    cases flag <;> rfl
  refine ⟨hnumber, fun hx => ?_⟩
  have hvalue : w.get x = op.result (v.get x) (v.get y) := by
    rw [hw, Registers.get_setFlag_of_ne _ _ hx, Registers.get_set_self]
  rw [hnumber, hvalue]
  exact op.exact_result _ _

end Arith

namespace Machine

/-- **Arithmetic loses nothing.** The exact sum, difference or doubled or
halved byte can be read off the target and the flag, whichever registers
the operands are. If the target is the flag register, the flag wins. No
other register changes, and nothing else does. -/
theorem arith_loses_nothing (m : Machine) (x y : Register) :
    let a := (m.registers.get x).toNat
    let b := (m.registers.get y).toNat
    let after := fun op => (m.execute (.arith op x y)).machine.registers
    let value := fun op => ((after op).get x).toNat
    let flag := fun op => ((after op).get .flag).toNat
    (flag .add = (a + b) / 256
      ∧ (x ≠ .flag → 256 * flag .add + value .add = a + b))
    ∧ (flag .sub = (if b ≤ a then 1 else 0)
      ∧ (x ≠ .flag → value .sub + b = a + 256 * (1 - flag .sub)))
    ∧ (flag .subFrom = (if a ≤ b then 1 else 0)
      ∧ (x ≠ .flag → value .subFrom + a = b + 256 * (1 - flag .subFrom)))
    ∧ (flag .shiftRight = b % 2
      ∧ (x ≠ .flag → 2 * value .shiftRight + flag .shiftRight = b))
    ∧ (flag .shiftLeft = b / 128
      ∧ (x ≠ .flag → 256 * flag .shiftLeft + value .shiftLeft = 2 * b))
    ∧ ∀ op,
        (∀ r, r ≠ x → r ≠ .flag → (after op).get r = m.registers.get r)
        ∧ m.execute (.arith op x y) = .quiet { m with registers := after op }
        ∧ Instruction.decode (.ofRegisters 0x8 x y op.code) = .ok (.arith op x y) := by
  intro a b after value flag
  have hexact {op : Arith} (h : op.HasFlag) :
      flag op = op.flagNumber a b ∧ (x ≠ .flag → op.Exact a b (value op) (flag op)) :=
    Arith.exact_apply h x y m.registers
  refine ⟨hexact trivial, hexact trivial, hexact trivial, hexact trivial, hexact trivial, ?_⟩
  intro op
  refine ⟨?_, rfl, ?_⟩
  · intro r hx hf
    exact Arith.get_apply_of_ne hx fun _ => hf
  · exact Instruction.decode_eq_ok_iff.mpr
      (Instruction.decode?_encode (i := .arith op x y) trivial)

/-- The flag register is an operand of a sum with a carry, and then the
target of a difference. -/
theorem arith_loses_nothing_flag_operand :
    let m : Machine :=
      { initial (.ofSeed 0) 0 with registers := (Registers.zero.set 1 200).set .flag 100 }
    let sum := (m.execute (.arith .add 1 .flag)).machine.registers
    let difference := (m.execute (.arith .sub .flag 1)).machine.registers
    ((1 : Register) ≠ .flag ∧ (2 : Register) ≠ 1 ∧ (2 : Register) ≠ .flag)
    ∧ (sum.get .flag).toNat = 1
    ∧ 256 * (sum.get .flag).toNat + (sum.get 1).toNat = 200 + 100
    ∧ sum.get 2 = m.registers.get 2
    ∧ (difference.get .flag).toNat = 0 := by
  intro m sum difference
  have h₁ : (1 : Register) ≠ .flag := by decide
  have h₂ : (2 : Register) ≠ 1 ∧ (2 : Register) ≠ .flag := by decide
  obtain ⟨⟨hcarry, hsum⟩, -, -, -, -, hrest⟩ := m.arith_loses_nothing 1 .flag
  obtain ⟨-, ⟨hborrow, -⟩, -⟩ := m.arith_loses_nothing .flag 1
  have hv₁ : (m.registers.get 1).toNat = 200 := by decide
  have hflag : (m.registers.get .flag).toNat = 100 := by decide
  rw [hv₁, hflag] at hcarry hsum hborrow
  exact ⟨⟨h₁, h₂⟩, hcarry, hsum h₁, (hrest .add).1 2 h₂.1 h₂.2, hborrow⟩

end Machine

end Chip8

import Chip8.Instruction.Encoding

/-!
# Reading and writing instruction words

The words that `decode?` accepts are exactly the ones that `encode` writes for
well-formed instructions, and each is read as the instruction that it was
written for (`decode?_eq_some_iff`).

A word built from fields has these fields again, and a word is the one built
from its own fields; the rest is a case for each form of a word.
-/

namespace Chip8

namespace Word

theorem nnn_lt (w : Word) : w.nnn.toNat < 4096 := by
  simp only [nnn, UInt16.toNat_ofNat']
  omega

theorem n_lt (w : Word) : w.n.toNat < 16 := by
  simp only [n, UInt8.toNat_ofNat']
  omega

/-! ## The number of a built word -/

section Built

variable {op : Nat} (h : op < 16)
include h

theorem toNat_ofAddress (a : Address) :
    (ofAddress op a).toNat = op * 4096 + a.toNat % 4096 := by
  simp only [ofAddress, UInt16.toNat_ofNat']
  omega

theorem toNat_ofByte (x : Register) (nn : UInt8) :
    (ofByte op x nn).toNat = op * 4096 + x.val * 256 + nn.toNat := by
  have := nn.toNat_lt
  simp only [ofByte, UInt16.toNat_ofNat']
  omega

theorem toNat_ofRegisters (x y : Register) (n : Nat) :
    (ofRegisters op x y n).toNat = op * 4096 + x.val * 256 + y.val * 16 + n % 16 := by
  simp only [ofRegisters, UInt16.toNat_ofNat']
  omega

/-! ## The fields of a built word -/

@[simp] theorem opcode_ofAddress (a : Address) : (ofAddress op a).opcode = op := by
  rw [opcode, toNat_ofAddress h]
  omega

@[simp] theorem nnn_ofAddress {a : Address} (ha : a.toNat < 4096) :
    (ofAddress op a).nnn = a := by
  refine UInt16.toNat_inj.mp ?_
  rw [nnn, toNat_ofAddress h, UInt16.toNat_ofNat']
  omega

@[simp] theorem opcode_ofByte (x : Register) (nn : UInt8) : (ofByte op x nn).opcode = op := by
  have := nn.toNat_lt
  rw [opcode, toNat_ofByte h]
  omega

@[simp] theorem x_ofByte (x : Register) (nn : UInt8) : (ofByte op x nn).x = x := by
  have := nn.toNat_lt
  refine Fin.ext ?_
  simp only [Word.x, toNat_ofByte h]
  omega

@[simp] theorem nn_ofByte (x : Register) (nn : UInt8) : (ofByte op x nn).nn = nn := by
  have := nn.toNat_lt
  refine UInt8.toNat_inj.mp ?_
  simp only [Word.nn, toNat_ofByte h, UInt8.toNat_ofNat']
  omega

@[simp] theorem opcode_ofRegisters (x y : Register) (n : Nat) :
    (ofRegisters op x y n).opcode = op := by
  rw [opcode, toNat_ofRegisters h]
  omega

@[simp] theorem x_ofRegisters (x y : Register) (n : Nat) : (ofRegisters op x y n).x = x := by
  refine Fin.ext ?_
  simp only [Word.x, toNat_ofRegisters h]
  omega

@[simp] theorem y_ofRegisters (x y : Register) (n : Nat) : (ofRegisters op x y n).y = y := by
  refine Fin.ext ?_
  simp only [Word.y, toNat_ofRegisters h]
  omega

@[simp] theorem n_ofRegisters (x y : Register) (n : Nat) :
    (ofRegisters op x y n).n = UInt8.ofNat (n % 16) := by
  refine UInt8.toNat_inj.mp ?_
  simp only [Word.n, toNat_ofRegisters h, UInt8.toNat_ofNat']
  omega

end Built

/-! ## A word is built from its own fields -/

section Fields

variable {w : Word} {op : Nat} (h : w.opcode = op)
include h

theorem ofAddress_nnn : ofAddress op w.nnn = w := by
  subst h
  have hw := w.toNat_lt
  refine UInt16.toNat_inj.mp ?_
  rw [toNat_ofAddress (by simp only [opcode]; omega)]
  simp only [opcode, nnn, UInt16.toNat_ofNat']
  omega

theorem ofByte_x_nn : ofByte op w.x w.nn = w := by
  subst h
  have hw := w.toNat_lt
  refine UInt16.toNat_inj.mp ?_
  rw [toNat_ofByte (by simp only [opcode]; omega)]
  simp only [opcode, x, nn, UInt8.toNat_ofNat']
  omega

theorem ofRegisters_x_y_n : ofRegisters op w.x w.y w.n.toNat = w := by
  subst h
  have hw := w.toNat_lt
  refine UInt16.toNat_inj.mp ?_
  rw [toNat_ofRegisters (by simp only [opcode]; omega)]
  simp only [opcode, x, y, n, UInt8.toNat_ofNat']
  omega

end Fields

end Word

namespace Arith

theorem code_lt (op : Arith) : op.code < 16 := by
  cases op <;> decide

theorem code_of_ofCode? {n : Nat} {op : Arith} (h : ofCode? n = some op) : op.code = n := by
  unfold ofCode? at h
  split at h
  case h_10 => cases h
  all_goals
    cases h
    rfl

end Arith

namespace Instruction

/-! ## Both directions -/

theorem decode?_encode {i : Instruction} (h : i.WellFormed) : decode? i.encode = some i := by
  cases i with
  | clear | ret => decide
  | skip condition => cases condition <;> simp [encode, Condition.encode, decode?]
  | arith op x y =>
    have h₁ := op.code_lt
    have h₂ : op.code % 256 = op.code := Nat.mod_eq_of_lt (by omega)
    simp [encode, decode?, Nat.mod_eq_of_lt h₁, h₂]
  | draw x y rows =>
    have h : rows.toNat < 16 := h
    simp [encode, decode?, Nat.mod_eq_of_lt h]
  | _ => simp_all [encode, decode?, ofMiscCode?, WellFormed]

theorem wellFormed_of_decode? {w : Word} {i : Instruction} (h : decode? w = some i) :
    i.WellFormed := by
  unfold decode? at h
  split at h
  case h_2 | h_3 | h_11 | h_12 =>
    cases h
    exact w.nnn_lt
  case h_14 =>
    cases h
    exact w.n_lt
  case h_9 =>
    obtain ⟨op, -, rfl⟩ := Option.map_eq_some_iff.mp h
    trivial
  case h_16 =>
    unfold ofMiscCode? at h
    split at h <;> cases h <;> trivial
  case h_1 | h_6 | h_10 | h_15 => split at h <;> cases h <;> trivial
  case h_17 => cases h
  all_goals
    cases h
    trivial

theorem encode_of_decode? {w : Word} {i : Instruction} (h : decode? w = some i) :
    i.encode = w := by
  unfold decode? at h
  split at h
  case h_1 ho =>
    -- the whole word is its last three digits
    have hw : w.nnn.toNat = w.toNat := by
      simp only [Word.opcode] at ho
      simp only [Word.nnn, UInt16.toNat_ofNat']
      omega
    split at h
    case h_1 hn | h_2 hn =>
      cases h
      exact UInt16.toNat_inj.mp (hn.symm.trans hw)
    case h_3 => cases h
  case h_2 ho | h_3 ho | h_11 ho | h_12 ho =>
    cases h
    exact Word.ofAddress_nnn ho
  case h_4 ho | h_5 ho | h_7 ho | h_8 ho | h_13 ho =>
    cases h
    exact Word.ofByte_x_nn ho
  case h_6 ho | h_10 ho =>
    have hw := Word.ofRegisters_x_y_n ho
    split at h
    · rename_i hn
      cases h
      rwa [hn] at hw
    · cases h
  case h_9 ho =>
    have hw := Word.ofRegisters_x_y_n ho
    obtain ⟨op, hop, rfl⟩ := Option.map_eq_some_iff.mp h
    rwa [← Arith.code_of_ofCode? hop] at hw
  case h_14 ho =>
    cases h
    exact Word.ofRegisters_x_y_n ho
  case h_15 ho =>
    have hw := Word.ofByte_x_nn ho
    rw [← UInt8.ofNat_toNat (x := w.nn)] at hw
    split at h
    case h_1 hn | h_2 hn =>
      cases h
      rwa [hn] at hw
    case h_3 => cases h
  case h_16 ho =>
    have hw := Word.ofByte_x_nn ho
    rw [← UInt8.ofNat_toNat (x := w.nn)] at hw
    unfold ofMiscCode? at h
    split at h
    case h_10 => cases h
    all_goals
      rename_i hn
      cases h
      rwa [hn] at hw
  case h_17 => cases h

theorem decode?_eq_some_iff {w : Word} {i : Instruction} :
    decode? w = some i ↔ i.WellFormed ∧ i.encode = w := by
  constructor
  · exact fun h => ⟨wellFormed_of_decode? h, encode_of_decode? h⟩
  · rintro ⟨hi, rfl⟩
    exact decode?_encode hi

end Instruction

end Chip8

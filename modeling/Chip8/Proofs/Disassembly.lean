import Chip8.Instruction.Assembly
import Chip8.Instruction.RoundTrip

/-!
# Reading assembly text

What an instruction is shown as can be read back (`Instruction.ofText?_text`),
so the text says all there is to say about the instruction, and about the
word that it came from.

The text is taken apart from the outside and understood from the inside. No
operand and no mnemonic contains a comma or a blank, so these mark where the
parts end (`Instruction.parts_text`). A part is told by its characters alone
(`Operand.ofChars?_text`): the digits of a number have a value, which padding
does not change, and of two numbers with a base mark the one of two digits is
a byte. An instruction, last, is told by the kinds of its operands, and by
its mnemonic where these are the same (`Instruction.ofParts?_operands`).
-/

namespace Chip8

/-! ## Hexadecimal numbers -/

namespace Hex

def digitValue (c : Char) : Nat := if c.isDigit then c.toNat - 48 else c.toNat - 55

/-- The number that the digits stand for, the highest of them first. -/
def value (l : List Char) : Nat := l.foldl (fun n c => 16 * n + digitValue c) 0

theorem digitValue_digitChar : ∀ d < 16, digitValue (Nat.digitChar d).toUpper = d := by decide

theorem value_concat (l : List Char) (c : Char) :
    value (l ++ [c]) = 16 * value l + digitValue c := by
  rw [value, List.foldl_append]
  rfl

theorem value_toDigits (n : Nat) : value ((Nat.toDigits 16 n).map Char.toUpper) = n := by
  induction n using Nat.strongRecOn with
  | ind n ih =>
      have hlast : n % 16 < 16 := Nat.mod_lt n (by decide)
      rw [Nat.toDigits_eq_if (by decide)]
      split
      · rename_i hn
        simp [value, digitValue_digitChar n hn]
      · rename_i hn
        have hlt : n / 16 < n := Nat.div_lt_self (by omega) (by decide)
        rw [List.map_append, List.map_singleton, value_concat, ih _ hlt,
          digitValue_digitChar _ hlast, Nat.div_add_mod]

theorem value_replicate_append (k : Nat) (l : List Char) :
    value (List.replicate k '0' ++ l) = value l := by
  induction k with
  | zero => rfl
  | succ k ih => exact ih

@[simp] theorem value_digits (width n : Nat) : value (digits width n) = n := by
  rw [digits, List.leftpad, value_replicate_append, value_toDigits]

theorem length_digits (width n : Nat) :
    (digits width n).length = max width (Nat.toDigits 16 n).length := by
  rw [digits, List.leftpad, List.length_append, List.length_replicate, List.length_map]
  omega

theorem toList_text (width n : Nat) : (text width n).toList = '0' :: 'x' :: digits width n := by
  simp [text]

theorem exists_of_mem_toDigits {n : Nat} {c : Char} (h : c ∈ Nat.toDigits 16 n) :
    ∃ d < 16, c = Nat.digitChar d := by
  induction n using Nat.strongRecOn with
  | ind n ih =>
      rw [Nat.toDigits_eq_if (by decide)] at h
      split at h
      · rename_i hn
        exact ⟨n, hn, List.mem_singleton.mp h⟩
      · rename_i hn
        rcases List.mem_append.mp h with h | h
        · exact ih _ (Nat.div_lt_self (by omega) (by decide)) h
        · exact ⟨n % 16, Nat.mod_lt n (by decide), List.mem_singleton.mp h⟩

theorem isAlphanum_of_mem_digits {width n : Nat} {c : Char} (h : c ∈ digits width n) :
    c.isAlphanum := by
  rcases List.mem_append.mp h with h | h
  · rw [List.eq_of_mem_replicate h]
    rfl
  · obtain ⟨c', hc', rfl⟩ := List.mem_map.mp h
    obtain ⟨d, hd, rfl⟩ := exists_of_mem_toDigits hc'
    have hall : ∀ d < 16, (Nat.digitChar d).toUpper.isAlphanum := by decide
    exact hall d hd

theorem isAlphanum_of_mem_text {width n : Nat} {c : Char} (h : c ∈ (text width n).toList) :
    c.isAlphanum := by
  rw [toList_text] at h
  rcases List.mem_cons.mp h with rfl | h
  · rfl
  · rcases List.mem_cons.mp h with rfl | h
    · rfl
    · exact isAlphanum_of_mem_digits h

end Hex

/-! ## Parts of a text -/

/-- None of the characters separates two parts of a text. -/
def Unbroken (l : List Char) : Prop := ',' ∉ l ∧ ' ' ∉ l

theorem Unbroken.of_isAlphanum {l : List Char} (h : ∀ c ∈ l, c.isAlphanum) : Unbroken l :=
  ⟨fun hc => absurd (h _ hc) (by decide), fun hc => absurd (h _ hc) (by decide)⟩

theorem Unbroken.filter_eq {l : List Char} (h : Unbroken l) : l.filter (· ≠ ',') = l := by
  refine List.filter_eq_self.mpr fun c hc => decide_eq_true ?_
  rintro rfl
  exact h.1 hc

/-- Without the commas there are only single blanks in between. -/
theorem filter_intercalate {l : List String} (h : ∀ s ∈ l, Unbroken s.toList) :
    (", ".intercalate l).toList.filter (· ≠ ',') = [' '].intercalate (l.map String.toList) := by
  rw [String.toList_intercalate]
  induction l with
  | nil => rfl
  | cons s l ih =>
      obtain ⟨hs, hl⟩ := List.forall_mem_cons.mp h
      cases l with
      | nil => simpa using hs.filter_eq
      | cons s' l =>
          have hrest := ih hl
          simp only [List.map_cons, List.intercalate_cons_cons] at hrest ⊢
          rw [List.filter_append, List.filter_append, hs.filter_eq, hrest]
          rfl

/-! ## Operands -/

namespace Operand

/-- The operand that is written with these characters. -/
def ofChars? (l : List Char) : Option Operand :=
  if l.all Char.isDigit then some (count (UInt8.ofNat (Nat.ofDigitChars 10 l 0)))
  else match l with
  | 'V' :: digits =>
    if h : Hex.value digits < 16 then some (register ⟨Hex.value digits, h⟩) else none
  | '0' :: 'x' :: digits =>
    if digits.length = 2 then some (byte (UInt8.ofNat (Hex.value digits)))
    else some (address (UInt16.ofNat (Hex.value digits)))
  | ['I'] => some index
  | ['[', 'I', ']'] => some memory
  | ['D', 'T'] => some delayTimer
  | ['S', 'T'] => some soundTimer
  | ['K'] => some key
  | ['F'] => some glyph
  | ['B'] => some decimal
  | _ => none

theorem toList_text_register (r : Register) :
    (register r).text.toList = 'V' :: Hex.digits 1 r.val := by
  simp [text, Register.name]

theorem toList_text_count (n : UInt8) : (count n).text.toList = Nat.toDigits 10 n.toNat := by
  rw [text, Nat.toString_eq_ofList_toDigits, String.toList_ofList]

theorem isDigit_of_mem_text_count {n : UInt8} {c : Char} (h : c ∈ (count n).text.toList) :
    c.isDigit := by
  rw [toList_text_count] at h
  exact Nat.isDigit_of_mem_toDigits (by decide) (by decide) h

theorem ofChars?_text (o : Operand) : ofChars? o.text.toList = some o := by
  cases o with
  | register r =>
      rw [toList_text_register]
      simp [ofChars?]
  | address a =>
      have hlen : (Hex.digits 3 a.toNat).length ≠ 2 := by
        rw [Hex.length_digits]
        omega
      rw [text, Hex.address, Hex.toList_text]
      simp [ofChars?, hlen]
  | byte b =>
      have hle : (Nat.toDigits 16 b.toNat).length ≤ 2 :=
        (Nat.length_toDigits_le_iff (by decide) (by decide)).mpr b.toNat_lt
      have hlen : (Hex.digits 2 b.toNat).length = 2 := by
        rw [Hex.length_digits]
        omega
      rw [text, Hex.byte, Hex.toList_text]
      simp [ofChars?, hlen]
  | count n =>
      have hall : (count n).text.toList.all Char.isDigit :=
        List.all_eq_true.mpr fun c => isDigit_of_mem_text_count
      unfold ofChars?
      rw [if_pos hall, toList_text_count, Nat.ofDigitChars_ten_toDigits, UInt8.ofNat_toNat]
  | index | memory | delayTimer | soundTimer | key | glyph | decimal => rfl

theorem unbroken_text (o : Operand) : Unbroken o.text.toList := by
  cases o with
  | register r =>
      refine .of_isAlphanum ?_
      rw [toList_text_register]
      simpa using fun c => Hex.isAlphanum_of_mem_digits
  | address _ | byte _ => exact .of_isAlphanum fun c => Hex.isAlphanum_of_mem_text
  | count n =>
      refine .of_isAlphanum fun c hc => ?_
      simp [Char.isAlphanum, isDigit_of_mem_text_count hc]
  | memory | index | delayTimer | soundTimer | key | glyph | decimal => simp [Unbroken, text]

theorem mapM_ofChars?_text (l : List Operand) :
    (l.map fun o => o.text.toList).mapM ofChars? = some l := by
  induction l with
  | nil => rfl
  | cons o l ih => simp [ofChars?_text, ih]

end Operand

/-! ## Mnemonics -/

/-- The operation that is written with this mnemonic between two registers. -/
def Arith.ofMnemonic? : String → Option Arith
  | "LD" => some copy
  | "OR" => some or
  | "AND" => some and
  | "XOR" => some xor
  | "ADD" => some add
  | "SUB" => some sub
  | "SHR" => some shiftRight
  | "SUBN" => some subFrom
  | "SHL" => some shiftLeft
  | _ => none

theorem Arith.unbroken_mnemonic (op : Arith) : Unbroken op.mnemonic.toList := by
  cases op <;> simp [Unbroken, mnemonic]

theorem Condition.unbroken_mnemonic (c : Condition) : Unbroken c.mnemonic.toList := by
  cases c <;> simp [Unbroken, mnemonic]

namespace Instruction

theorem unbroken_mnemonic (i : Instruction) : Unbroken i.mnemonic.toList := by
  cases i with
  | skip condition => exact condition.unbroken_mnemonic
  | arith op x y => exact op.unbroken_mnemonic
  | _ => simp [Unbroken, mnemonic]

/-- The instruction with this mnemonic and these operands. In most cases the
kinds of the operands decide. -/
def ofParts? (mnemonic : String) : List Operand → Option Instruction
  | [] =>
    match mnemonic with
    | "CLS" => some clear
    | "RET" => some ret
    | _ => none
  | [.address a] =>
    match mnemonic with
    | "JP" => some (jump a)
    | "CALL" => some (call a)
    | _ => none
  | [.register x] =>
    match mnemonic with
    | "SKP" => some (skip (.keyDown x))
    | "SKNP" => some (skip (.keyUp x))
    | _ => none
  | [.register x, .byte nn] =>
    match mnemonic with
    | "SE" => some (skip (.byteEq x nn))
    | "SNE" => some (skip (.byteNe x nn))
    | "LD" => some (setByte x nn)
    | "ADD" => some (addByte x nn)
    | "RND" => some (random x nn)
    | _ => none
  | [.register x, .register y] =>
    match mnemonic with
    | "SE" => some (skip (.registerEq x y))
    | "SNE" => some (skip (.registerNe x y))
    | _ => (Arith.ofMnemonic? mnemonic).map (arith · x y)
  | [.register x, .register y, .count rows] => some (draw x y rows)
  | [.register _, .address a] => some (jumpOffset a)
  | [.index, .address a] => some (setIndex a)
  | [.index, .register x] => some (addIndex x)
  | [.register x, .delayTimer] => some (readDelay x)
  | [.delayTimer, .register x] => some (setDelay x)
  | [.soundTimer, .register x] => some (setSound x)
  | [.register x, .key] => some (awaitKey x)
  | [.glyph, .register x] => some (glyph x)
  | [.decimal, .register x] => some (decimal x)
  | [.memory, .register x] => some (save x)
  | [.register x, .memory] => some (restore x)
  | _ => none

theorem ofParts?_operands (i : Instruction) : ofParts? i.mnemonic i.operands = some i := by
  cases i with
  | skip condition => cases condition <;> rfl
  | arith op x y => cases op <;> rfl
  | _ => rfl

/-! ## The whole text -/

/-- The mnemonic and the operands of a text. -/
def parts (s : String) : List (List Char) := (s.toList.filter (· ≠ ',')).splitOn ' '

/-- The instruction that is written like this. -/
def ofText? (s : String) : Option Instruction :=
  match parts s with
  | [] => none
  | mnemonic :: operands => do
    ofParts? (String.ofList mnemonic) (← operands.mapM Operand.ofChars?)

theorem filter_text (i : Instruction) :
    i.text.toList.filter (· ≠ ',')
      = [' '].intercalate (i.mnemonic.toList :: i.operands.map fun o => o.text.toList) := by
  have hmnemonic := i.unbroken_mnemonic.filter_eq
  unfold text
  cases i.operands with
  | nil => simpa using hmnemonic
  | cons o l =>
      have hunbroken : ∀ s ∈ (o :: l).map Operand.text, Unbroken s.toList := by
        intro s hs
        obtain ⟨o', -, rfl⟩ := List.mem_map.mp hs
        exact o'.unbroken_text
      have hoperands := filter_intercalate hunbroken
      rw [List.map_map] at hoperands
      simp only [String.toList_append, List.filter_append, hmnemonic, hoperands]
      exact List.intercalate_cons_cons.symm

theorem parts_text (i : Instruction) :
    parts i.text = i.mnemonic.toList :: i.operands.map fun o => o.text.toList := by
  have hblank : ∀ l ∈ i.mnemonic.toList :: i.operands.map fun o => o.text.toList, ' ' ∉ l := by
    refine List.forall_mem_cons.mpr ⟨i.unbroken_mnemonic.2, fun l hl => ?_⟩
    obtain ⟨o, -, rfl⟩ := List.mem_map.mp hl
    exact o.unbroken_text.2
  rw [parts, filter_text, List.splitOn_intercalate _ hblank (List.cons_ne_nil _ _)]

theorem ofText?_text (i : Instruction) : ofText? i.text = some i := by
  simp only [ofText?, parts_text, Operand.mapM_ofChars?_text, String.ofList_toList]
  exact i.ofParts?_operands

/-- **The text says which instruction it is**, whatever the operands are and
whether or not they fit a word. Different words are shown differently, and a
word can be found again from what it is shown as. -/
theorem text_unambiguous :
    Function.Injective text
    ∧ (∀ v w i j, decode v = .ok i → decode w = .ok j → v ≠ w → i.text ≠ j.text)
    ∧ ∀ w i, decode w = .ok i → (ofText? i.text).map encode = some w := by
  have hinjective : Function.Injective text := by
    intro i j h
    have hi := ofText?_text i
    rw [h, ofText?_text] at hi
    exact (Option.some.inj hi).symm
  have hencode : ∀ {w i}, decode w = .ok i → encode i = w := fun h =>
    encode_of_decode? (decode_eq_ok_iff.mp h)
  refine ⟨hinjective, ?_, ?_⟩
  · intro v w i j hv hw hne htext
    obtain rfl := hinjective htext
    exact hne ((hencode hv).symm.trans (hencode hw))
  · intro w i hw
    rw [ofText?_text, Option.map_some, hencode hw]

/-- A byte for a register and an address for the index, which have the same
mnemonic and the same digits, and two jumps to targets that differ only in a
digit beyond the third. -/
theorem text_unambiguous_of_loads :
    (decode 0x62F0 = .ok (setByte 2 0xF0) ∧ decode 0xA2F0 = .ok (setIndex 0x2F0)
      ∧ (0x62F0 : Word) ≠ 0xA2F0)
    ∧ (setByte 2 0xF0).text ≠ (setIndex 0x2F0).text
    ∧ (ofText? "LD I, 0x2F0").map encode = some 0xA2F0
    ∧ (jump 0x1234).text ≠ (jump 0x234).text := by
  obtain ⟨hinjective, hwords, hread⟩ := text_unambiguous
  have hbyte : decode 0x62F0 = .ok (setByte 2 0xF0) := rfl
  have hindex : decode 0xA2F0 = .ok (setIndex 0x2F0) := rfl
  have htext : (setIndex 0x2F0).text = "LD I, 0x2F0" := rfl
  have hne : (0x62F0 : Word) ≠ 0xA2F0 := by decide
  have htarget : jump 0x1234 ≠ jump 0x234 := by decide
  refine ⟨⟨hbyte, hindex, hne⟩, hwords _ _ _ _ hbyte hindex hne, ?_, ?_⟩
  · rw [← htext]
    exact hread _ _ hindex
  · exact fun h => htarget (hinjective h)

end Instruction

end Chip8

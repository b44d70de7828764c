/-!
# Words and their fields

An instruction is a 16-bit word. Its fields are read off by division and
remainder: the operation code is the first hexadecimal digit, `x` and `y` are
the second and third digits and name registers, `n`, `nn` and `nnn` are the
last one, two and three digits.
-/

namespace Chip8

/-- A memory address. Data accesses use its low twelve bits. -/
abbrev Address := UInt16

/-- An instruction word. -/
abbrev Word := UInt16

/-- One of the sixteen registers, by its number. -/
abbrev Register := Fin 16

namespace Register

/-- The register named by the low digit of a byte. -/
def ofByte (b : UInt8) : Register := ⟨b.toNat % 16, Nat.mod_lt _ (by decide)⟩

/-- The first register, which a jump can take as its offset. -/
def first : Register := ⟨0, by decide⟩

/-- The last register, which instructions also use for their flag. -/
def flag : Register := ⟨15, by decide⟩

/-- The registers up to and including `r`, in ascending order. -/
def upTo (r : Register) : List Register :=
  (List.finRange 16).take (r.val + 1)

@[simp] theorem length_upTo (r : Register) : r.upTo.length = r.val + 1 := by
  simp only [upTo, List.length_take, List.length_finRange]
  omega

end Register

namespace Word

/-- The word whose first byte is `high` and whose second is `low`. -/
def ofBytes (high low : UInt8) : Word :=
  UInt16.ofNat (256 * high.toNat + low.toNat)

def high (w : Word) : UInt8 := UInt8.ofNat (w.toNat / 256)

def low (w : Word) : UInt8 := UInt8.ofNat w.toNat

theorem toNat_ofBytes (a b : UInt8) : (ofBytes a b).toNat = 256 * a.toNat + b.toNat := by
  have ha := a.toNat_lt
  have hb := b.toNat_lt
  simp only [ofBytes, UInt16.toNat_ofNat']
  omega

theorem ofBytes_high_low (w : Word) : ofBytes w.high w.low = w := by
  have h := w.toNat_lt
  refine UInt16.toNat_inj.mp ?_
  simp only [ofBytes, high, low, UInt8.toNat_ofNat', UInt16.toNat_ofNat']
  omega

@[simp] theorem high_ofBytes (a b : UInt8) : (ofBytes a b).high = a := by
  have ha := a.toNat_lt
  have hb := b.toNat_lt
  refine UInt8.toNat_inj.mp ?_
  simp only [high, toNat_ofBytes, UInt8.toNat_ofNat']
  omega

@[simp] theorem low_ofBytes (a b : UInt8) : (ofBytes a b).low = b := by
  have hb := b.toNat_lt
  refine UInt8.toNat_inj.mp ?_
  simp only [low, toNat_ofBytes, UInt8.toNat_ofNat']
  omega

/-! ## Fields -/

/-- The first digit. -/
def opcode (w : Word) : Nat := w.toNat / 4096

/-- The register named by the second digit. -/
def x (w : Word) : Register := ⟨w.toNat / 256 % 16, Nat.mod_lt _ (by decide)⟩

/-- The register named by the third digit. -/
def y (w : Word) : Register := ⟨w.toNat / 16 % 16, Nat.mod_lt _ (by decide)⟩

/-- The last digit. -/
def n (w : Word) : UInt8 := UInt8.ofNat (w.toNat % 16)

/-- The last two digits. -/
def nn (w : Word) : UInt8 := UInt8.ofNat (w.toNat % 256)

/-- The last three digits. -/
def nnn (w : Word) : Address := UInt16.ofNat (w.toNat % 4096)

end Word

end Chip8

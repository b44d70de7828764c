import Chip8.Proofs.Cycle
import Chip8.Proofs.Drawing

/-!
# The machine with its bounds checked

The operations of the machine once more, each so that it gives nothing
where a sum, a difference or a position would be out of range. Those whose
own tests or masks keep them in range are always the plain operation; the
program counter and the index are not so guarded, and `execute_eq` says
which bounds on them an instruction needs.
-/

namespace Chip8

namespace Checked

/-! ## Addresses -/

def add (a b : Address) : Option Address :=
  if a.toNat + b.toNat < 65536 then some (a + b) else none

def sub (a b : Address) : Option Address :=
  if b.toNat ≤ a.toNat then some (a - b) else none

def mul (a b : Address) : Option Address :=
  if a.toNat * b.toNat < 65536 then some (a * b) else none

theorem add_eq {a b : Address} (h : a.toNat + b.toNat < 65536) : add a b = some (a + b) :=
  if_pos h

theorem sub_eq {a b : Address} (h : b.toNat ≤ a.toNat) : sub a b = some (a - b) := if_pos h

theorem mul_eq {a b : Address} (h : a.toNat * b.toNat < 65536) : mul a b = some (a * b) :=
  if_pos h

/-- A byte fits on top of an address that is not at the end of its range. -/
theorem add_byte_eq {a : Address} (b : UInt8) (h : a.toNat + 255 < 65536) :
    add a b.toUInt16 = some (a + b.toUInt16)
    ∧ (a + b.toUInt16).toNat = a.toNat + b.toNat := by
  have hb := b.toNat_lt
  have he : b.toUInt16.toNat = b.toNat := UInt8.toNat_toUInt16 b
  refine ⟨add_eq (by omega), ?_⟩
  rw [UInt16.toNat_add, he]
  omega

/-- The low twelve bits. -/
def mask (a : Address) : Nat := (a &&& 0x0FFF).toNat

theorem mask_eq (a : Address) : mask a = (Memory.slot a).val := by
  rw [mask, UInt16.toNat_and]
  exact Nat.and_two_pow_sub_one_eq_mod a.toNat 12

theorem and_fff_eq (a : Address) : a &&& 0x0FFF = UInt16.ofNat (a.toNat % Memory.size) := by
  refine UInt16.toNat_inj.mp ?_
  have hlt : a.toNat % Memory.size < 65536 := Nat.lt_trans (Memory.slot a).isLt (by decide)
  rw [UInt16.toNat_ofNat', Nat.mod_eq_of_lt hlt]
  exact mask_eq a

/-! ## Memory -/

def read (m : Memory) (a : Address) : Option UInt8 := m.bytes[mask a]?

def write (m : Memory) (a : Address) (b : UInt8) : Option Memory :=
  if Memory.fontStart ≤ mask a ∧ mask a < Memory.fontStart + Font.glyphs.length then some m
  else if h : mask a < 4096 then some ⟨m.bytes.set (mask a) b⟩ else none

def readList (m : Memory) (a : Address) : Nat → Option (List UInt8)
  | 0 => some []
  | count + 1 => do return (← read m a) :: (← readList m (a + 1) count)

def writeList (m : Memory) (a : Address) : List UInt8 → Option Memory
  | [] => some m
  | b :: l => do writeList (← write m a b) (a + 1) l

def fetch (m : Memory) (pc : Address) : Option (Except Fault Word) :=
  if 4096 < pc.toNat + 2 then some (.error (.outOfBounds pc))
  else do return .ok (.ofBytes (← m.bytes[pc.toNat]?) (← m.bytes[pc.toNat + 1]?))

/-- The address of a digit's glyph, with its sum and product. -/
def glyphAddress (digit : UInt8) : Option Address := do
  add 0x50 (← mul (digit &&& 0x0F).toUInt16 5)

@[simp] theorem read_eq (m : Memory) (a : Address) : read m a = some (m.read a) := by
  rw [read, mask_eq]
  exact getElem?_pos m.bytes _ (Memory.slot a).isLt

@[simp] theorem write_eq (m : Memory) (a : Address) (b : UInt8) :
    write m a b = some (m.write a b) := by
  have hlt : (Memory.slot a).val < 4096 := (Memory.slot a).isLt
  simp only [write, mask_eq, hlt, ↓reduceDIte]
  by_cases hf : Memory.InFont (Memory.slot a)
  · rw [Memory.write_of_inFont m b hf]
    exact if_pos hf
  · rw [Memory.write, if_neg hf]
    exact if_neg hf

@[simp] theorem readList_eq (m : Memory) (a : Address) (count : Nat) :
    readList m a count = some (m.readList a count) := by
  induction count generalizing a with
  | zero => rfl
  | succ count ih => simp [readList, Memory.readList, ih]

@[simp] theorem writeList_eq (m : Memory) (a : Address) (l : List UInt8) :
    writeList m a l = some (m.writeList a l) := by
  induction l generalizing m a with
  | nil => rfl
  | cons b l ih => simp [writeList, Memory.writeList, ih]

@[simp] theorem fetch_eq (m : Memory) (pc : Address) : fetch m pc = some (m.fetch pc) := by
  unfold fetch Memory.fetch
  split
  · rename_i h
    rw [dif_neg (Nat.not_le.mpr h)]
  · rename_i h
    have h₀ : pc.toNat < 4096 := by omega
    have h₁ : pc.toNat + 1 < 4096 := by omega
    rw [dif_pos (Nat.le_of_not_lt h)]
    simp [h₀, h₁]

@[simp] theorem glyphAddress_eq (digit : UInt8) :
    glyphAddress digit = some (Memory.glyphAddress digit) := by
  have hd : (digit &&& 0x0F).toNat = digit.toNat % 16 := by
    rw [UInt8.toNat_and]
    exact Nat.and_two_pow_sub_one_eq_mod digit.toNat 4
  have h₅ : (5 : Address).toNat = 5 := rfl
  have h₅₀ : (0x50 : Address).toNat = 0x50 := rfl
  have hmul : ((digit &&& 0x0F).toUInt16 * 5).toNat = digit.toNat % 16 * 5 := by
    rw [UInt16.toNat_mul, UInt8.toNat_toUInt16, hd, h₅]
    omega
  have hsum : (0x50 + (digit &&& 0x0F).toUInt16 * 5 : Address) = Memory.glyphAddress digit := by
    refine UInt16.toNat_inj.mp ?_
    simp only [Memory.glyphAddress, Memory.fontStart, Font.glyphHeight, UInt16.toNat_ofNat']
    rw [UInt16.toNat_add, hmul, h₅₀]
  rw [glyphAddress, mul_eq (by rw [UInt8.toNat_toUInt16, hd, h₅]; omega), Option.bind_eq_bind,
    Option.bind_some, add_eq (by rw [hmul, h₅₀]; omega), hsum]

/-! ## Registers, stack and keypad -/

/-- The register that the low digit of a byte names. -/
def register (b : UInt8) : Option Register := (List.finRange 16)[(b &&& 0x0F).toNat]?

def setFrom (v : Registers) (i : Nat) : List UInt8 → Option Registers
  | [] => some v
  | b :: l => if h : i < 16 then setFrom ⟨v.bytes.set i b⟩ (i + 1) l else none

def push (s : CallStack) (a : Address) : Option (Except Fault CallStack) :=
  if s.depth = 16 then some (.error (.stackOverflow a))
  else if h : s.depth < 16 then some (.ok ⟨s.slots.set s.depth a, s.depth + 1, h⟩) else none

def pop (s : CallStack) : Option (Option (Address × CallStack)) :=
  if s.depth = 0 then some none
  else if h : s.depth - 1 < 16 then
    some (some (s.slots[s.depth - 1],
      ⟨s.slots.set (s.depth - 1) 0, s.depth - 1, Nat.le_of_lt h⟩))
  else none

def press (k : Keypad) (code : UInt8) : Option Keypad :=
  if Keypad.IsKey code then
    if code.toNat < 16 then some ⟨k.down ||| (1#16 <<< code.toNat)⟩ else none
  else some k

def ofCodes (codes : List UInt8) : Option Keypad := codes.foldlM press .none

def isDown (k : Keypad) (code : UInt8) : Option Bool :=
  if Keypad.IsKey code then k.down[code.toNat]? else some false

theorem register_eq (b : UInt8) : register b = some (.ofByte b) := by
  have hb : (b &&& 0x0F).toNat = b.toNat % 16 := by
    rw [UInt8.toNat_and]
    exact Nat.and_two_pow_sub_one_eq_mod b.toNat 4
  have hlt : b.toNat % 16 < 16 := Nat.mod_lt _ (by decide)
  rw [register, hb]
  simp [hlt, Register.ofByte]

theorem setFrom_eq (v : Registers) {i : Nat} {l : List UInt8} (h : i + l.length ≤ 16) :
    setFrom v i l = some (v.setFrom i l) := by
  induction l generalizing v i with
  | nil => rfl
  | cons b l ih =>
      rw [List.length_cons] at h
      have hi : i < 16 := by omega
      have hset : v.bytes.setIfInBounds i b = v.bytes.set i b := Vector.ext fun k hk => by
        rw [Vector.getElem_setIfInBounds, Vector.getElem_set]
      rw [setFrom, Registers.setFrom, dif_pos hi, hset]
      exact ih _ (by omega)

@[simp] theorem push_eq (s : CallStack) (a : Address) : push s a = some (s.push a) := by
  rcases Nat.lt_or_eq_of_le s.depth_le with h | h
  · simp [push, CallStack.push, h, Nat.ne_of_lt h]
  · simp [push, CallStack.push, h]

@[simp] theorem pop_eq (s : CallStack) : pop s = some s.pop? := by
  obtain ⟨slots, depth, hd⟩ := s
  cases depth with
  | zero => rfl
  | succ depth => exact dif_pos hd

@[simp] theorem press_eq (k : Keypad) (code : UInt8) : press k code = some (k.press code) := by
  unfold press Keypad.press
  split
  · rename_i h
    exact if_pos h
  · rfl

@[simp] theorem ofCodes_eq (codes : List UInt8) : ofCodes codes = some (.ofCodes codes) := by
  have h : press = fun k code => some (k.press code) := by
    funext k code
    exact press_eq k code
  rw [ofCodes, h]
  exact List.foldlM_pure

@[simp] theorem isDown_eq (k : Keypad) (code : UInt8) : isDown k code = some (k.isDown code) := by
  unfold isDown
  split
  · rename_i h
    have hlt : code.toNat < 16 := h
    simp [hlt, Keypad.isDown]
  · rename_i h
    rw [Keypad.isDown, BitVec.getLsbD_of_ge _ _ (Nat.le_of_not_lt h)]

/-! ## Instructions -/

def stepOver (m : Machine) : Option Machine := do return { m with pc := ← add m.pc 2 }

/-- Both register fields are looked up, whatever the word is. -/
def decode (w : Word) : Option (Except Fault Instruction) := do
  let _ ← register (w >>> 8).toUInt8
  let _ ← register (w >>> 4).toUInt8
  return Instruction.decode w

def holds (m : Machine) : Condition → Option Bool
  | .keyDown x => isDown m.keypad (m.registers.get x)
  | .keyUp x => do return !(← isDown m.keypad (m.registers.get x))
  | condition => some (condition.holds m)

def store (m : Machine) (start : Address) (bytes : List UInt8) : Option Outcome := do
  return { m.store start bytes with
    machine := { m with memory := ← writeList m.memory start bytes } }

/-- The instructions that are left out compute no address and no position. -/
def execute (m : Machine) : Instruction → Option Outcome
  | .ret => do
      match ← pop m.stack with
      | some (returnTo, stack) => return .quiet { m with pc := returnTo, stack := stack }
      | none => return (Outcome.quiet m).announce (.emptyReturn m.pc)
  | .call target => do
      match ← push m.stack m.pc with
      | .ok stack => return .quiet { m with pc := target, stack := stack }
      | .error fault => return .failed m fault
  | .skip condition => do
      if ← holds m condition then return .quiet (← stepOver m) else return .quiet m
  | .jumpOffset base => do
      return .quiet { m with pc := ← add base (m.registers.get .first).toUInt16 }
  | .draw x y rows => do
      let sprite ← readList m.memory m.index (min rows.toNat Memory.maxSpriteRows)
      let (display, hit) ← m.display.scan?
        ((m.registers.get x).toNat % Display.width)
        ((m.registers.get y).toNat % Display.height) sprite
      return .quiet { m with registers := m.registers.setFlag hit, display := display }
  | .awaitKey x =>
    match m.keypad.first? with
    | some key => some (.quiet (m.setRegister x key))
    | none => do return .quiet { m with pc := ← sub m.pc 2 }
  | .addIndex x => do
      let sum ← add m.index (m.registers.get x).toUInt16
      return .quiet
        { m with
          index := sum &&& 0x0FFF
          registers := if 0x0FFF < sum then m.registers.setFlag true else m.registers }
  | .glyph x => do return .quiet { m with index := ← glyphAddress (m.registers.get x) }
  | .decimal x => store m m.index (decimalDigits (m.registers.get x))
  | .save x => store m m.index (m.registers.takeTo x)
  | .restore x => do
      let bytes ← readList m.memory m.index (x.val + 1)
      return .quiet { m with registers := ← setFrom m.registers 0 bytes }
  | i => some (m.execute i)

theorem stepOver_eq {m : Machine} (h : m.pc.toNat + 2 < 65536) :
    stepOver m = some m.stepOver := by
  have h₂ : m.pc.toNat + (2 : Address).toNat < 65536 := h
  simp [stepOver, add_eq h₂, Machine.stepOver]

@[simp] theorem decode_eq (w : Word) : decode w = some (Instruction.decode w) := by
  simp [decode, register_eq]

@[simp] theorem holds_eq (m : Machine) (condition : Condition) :
    holds m condition = some (condition.holds m) := by
  cases condition <;> simp [holds, Condition.holds]

@[simp] theorem store_eq (m : Machine) (start : Address) (bytes : List UInt8) :
    store m start bytes = some (m.store start bytes) := by
  simp [store, Machine.store]

theorem execute_addIndex_eq {m : Machine} (x : Register) (h : m.index.toNat + 255 < 65536) :
    execute m (.addIndex x) = some (m.execute (.addIndex x)) := by
  obtain ⟨hsum, hnat⟩ := add_byte_eq (m.registers.get x) h
  have hflag : 0x0FFF < m.index + (m.registers.get x).toUInt16
      ↔ Memory.size ≤ m.index.toNat + (m.registers.get x).toNat := by
    rw [UInt16.lt_iff_toNat_lt, hnat]
    rfl
  simp only [execute, hsum, Option.bind_eq_bind, Option.bind_some, and_fff_eq, hnat, hflag]
  rfl

/-- A jump with an offset needs an address of three digits, adding to the
index an index that is not near the end of its range, and skipping or
waiting a program counter that is near neither end. -/
theorem execute_eq {m : Machine} {i : Instruction} (hi : i.WellFormed)
    (hlow : 2 ≤ m.pc.toNat) (hhigh : m.pc.toNat + 2 < 65536)
    (hindex : m.index.toNat + 255 < 65536) : execute m i = some (m.execute i) := by
  cases i with
  | ret => cases hp : m.stack.pop? <;> simp [execute, Machine.execute, hp]
  | call target => cases hp : m.stack.push m.pc <;> simp [execute, Machine.execute, hp]
  | skip condition =>
      cases hc : condition.holds m <;> simp [execute, Machine.execute, hc, stepOver_eq hhigh]
  | jumpOffset base =>
      have hbase : base.toNat < 4096 := hi
      obtain ⟨hsum, -⟩ := add_byte_eq (a := base) (m.registers.get .first) (by omega)
      simp [execute, hsum, Machine.execute]
  | draw x y rows =>
      have hx : (m.registers.get x).toNat % Display.width < Display.sumLimit :=
        Display.lt_sumLimit (Nat.le_of_lt (Nat.mod_lt _ (by decide)))
      have hy : (m.registers.get y).toNat % Display.height < Display.sumLimit :=
        Display.lt_sumLimit (Nat.le_trans (Nat.le_of_lt (Nat.mod_lt _ (by decide))) (by decide))
      simp [execute, Display.scan?_eq _ _ hx hy, Machine.execute, Memory.sprite]
  | awaitKey x =>
      have h₂ : (2 : Address).toNat ≤ m.pc.toNat := hlow
      cases hk : m.keypad.first? <;> simp [execute, Machine.execute, hk, sub_eq h₂]
  | addIndex x => exact execute_addIndex_eq x hindex
  | glyph x => simp [execute, Machine.execute]
  | decimal x => simp [execute, Machine.execute]
  | save x => simp [execute, Machine.execute]
  | restore x =>
      have hlen : 0 + (m.memory.readList m.index (x.val + 1)).length ≤ 16 := by
        rw [Memory.length_readList]
        omega
      simp [execute, setFrom_eq _ hlen, Machine.execute]
  | _ => rfl

/-! ## Cycles -/

def cycle (m : Machine) (t : Time) : Option Outcome := do
  match ← fetch m.memory m.pc with
  | .error fault => return .failed (m.tick t) fault
  | .ok word =>
    let next ← stepOver (m.tick t)
    match ← decode word with
    | .error fault =>
      return (Outcome.failed next fault).announce (.unknownInstruction m.pc word)
    | .ok i => return (← execute next i).announce (.decoded m.pc word i)

def act (m : Machine) : Machine.Action → Option Outcome
  | .cycle t => cycle m t
  | .setKeys codes => do
      return { m.setKeys codes with machine := { m with keypad := ← ofCodes codes } }

/-- The whole program has to lie in memory. -/
def load (program : List UInt8) (random : Generator) (created : Time) :
    Option (Except Fault Machine) :=
  if program.isEmpty then some (.error .emptyProgram)
  else if Memory.programCapacity < program.length then
    some (.error (.programTooLarge program.length Memory.programCapacity))
  else
    let start := Memory.programStart.toNat
    if start + program.length ≤ Memory.size then
      some (.ok { Machine.initial random created with
        memory := ⟨Memory.place Memory.initial.bytes start program⟩ })
    else none

/-- The fetch is what keeps the program counter of a cycle in range. -/
theorem cycle_eq {m : Machine} (t : Time) (hindex : m.index.toNat + 255 < 65536) :
    cycle m t = some (m.cycle t) := by
  simp only [cycle, fetch_eq, Machine.cycle, Option.bind_eq_bind, Option.bind_some]
  cases hf : m.memory.fetch m.pc with
  | error fault => rfl
  | ok word =>
      have hpc : m.pc.toNat ≤ 0xFFE := by
        refine Nat.le_of_not_lt fun hlt => ?_
        rw [Memory.fetch_of_lt _ hlt] at hf
        cases hf
      have hrange : (m.tick t).pc.toNat + 2 < 65536 :=
        Nat.lt_of_le_of_lt (Nat.add_le_add_right hpc 2) (by decide)
      simp only [stepOver_eq hrange, decode_eq, Machine.runWord, Option.bind_some]
      cases hd : Instruction.decode word with
      | error fault => rfl
      | ok i =>
          have hi := Instruction.wellFormed_of_decode? (Instruction.decode_eq_ok_iff.mp hd)
          have hnext : (m.tick t).stepOver.pc.toNat = m.pc.toNat + 2 :=
            Machine.toNat_pc_stepOver hrange
          have hexec : execute (m.tick t).stepOver i = some ((m.tick t).stepOver.execute i) :=
            execute_eq hi (by omega) (by omega) hindex
          simp only [hexec, Option.bind_some]
          rfl

theorem act_eq {m : Machine} (a : Machine.Action) (hindex : m.index.toNat + 255 < 65536) :
    act m a = some (m.act a) := by
  cases a with
  | cycle t => exact cycle_eq t hindex
  | setKeys codes => simp [act, Machine.act, Machine.setKeys]

theorem load_eq (program : List UInt8) (random : Generator) (created : Time) :
    load program random created = some (Machine.load program random created) := by
  unfold load Machine.load Memory.load
  split
  · rfl
  · split
    · rfl
    · rename_i h
      have hle : Memory.programStart.toNat + program.length ≤ Memory.size := by
        have hc : Memory.programCapacity + Memory.programStart.toNat = Memory.size := rfl
        omega
      simp [hle]

end Checked

end Chip8

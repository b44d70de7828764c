import Chip8.Proofs.Access

/-!
# What is stored

Two instructions store bytes from the index on, the decimal digits of a
register or the registers themselves. The bytes lie one behind the other,
around the end of memory, so none is written over by a later one
(`Memory.get_writeList_behind`). Those that would fall into the font are
refused, each with a warning (`Memory.refused_eq`).

`Machine.Stores` says all this of one outcome, and that nothing else
happens.
-/

namespace Chip8

namespace Memory

/-- The byte that lies `k` behind an address. -/
def behind (a : Address) (k : Nat) : Fin 4096 := ⟨(a.toNat + k) % 4096, Nat.mod_lt _ (by decide)⟩

theorem behind_succ (a : Address) (k : Nat) : behind (a + 1) k = behind a (k + 1) := by
  refine Fin.ext ?_
  show ((a + 1).toNat + k) % 4096 = (a.toNat + (k + 1)) % 4096
  rw [UInt16.toNat_add, UInt16.toNat_one]
  omega

theorem inSpan_iff {a : Address} {n : Nat} {s : Fin 4096} :
    InSpan a n s ↔ ∃ k < n, s = behind a k := by
  simp only [InSpan, Fin.ext_iff, behind]

/-- As long as they do not go all the way around, the bytes behind an
address do not come back to it. -/
theorem not_inSpan_slot {a : Address} {n : Nat} (h : n < 4096) :
    ¬ InSpan (a + 1) n (slot a) := by
  rintro ⟨k, hk, hs⟩
  have hslot : (slot a).val = a.toNat % 4096 := rfl
  rw [hslot, UInt16.toNat_add, UInt16.toNat_one] at hs
  omega

theorem get_writeList_of_not_inFont (m : Memory) {a : Address} {l : List UInt8} {k : Nat}
    (hl : l.length ≤ 4096) (hk : k < l.length) (h : ¬ InFont (behind a k)) :
    (m.writeList a l).bytes.get (behind a k) = l[k] := by
  induction l generalizing m a k with
  | nil => exact absurd hk (Nat.not_lt_zero k)
  | cons b l ih =>
      cases k with
      | zero =>
          have hspan : ¬ InSpan (a + 1) l.length (slot a) := not_inSpan_slot hl
          show ((m.write a b).writeList (a + 1) l).bytes.get (slot a) = b
          rw [get_writeList_of_not_inSpan _ _ _ hspan, get_write, if_pos ⟨rfl, h⟩]
      | succ k =>
          rw [← behind_succ] at h ⊢
          exact ih (m.write a b) (Nat.le_of_succ_le hl) (Nat.lt_of_succ_lt_succ hk) h

theorem get_writeList_behind (m : Memory) (a : Address) {l : List UInt8} {k : Nat}
    (hl : l.length ≤ 4096) (hk : k < l.length) :
    (m.writeList a l).bytes.get (behind a k)
      = if InFont (behind a k) then m.bytes.get (behind a k) else l[k] := by
  split
  · rename_i h
    exact get_writeList_of_inFont m a l h
  · rename_i h
    exact m.get_writeList_of_not_inFont hl hk h

theorem refused_eq (a : Address) (l : List UInt8) :
    refused a l
      = (l.zipIdx.filter fun p => InFont (behind a p.2)).map fun p => (behind a p.2, p.1) := by
  induction l generalizing a with
  | nil => rfl
  | cons b l ih =>
      have htail : refused (a + 1) l
          = ((l.zipIdx 1).filter fun p => InFont (behind a p.2)).map
              fun p => (behind a p.2, p.1) := by
        rw [ih, List.zipIdx_succ, List.filter_map, List.map_map]
        simp only [behind_succ]
        rfl
      have hhead : behind a 0 = slot a := rfl
      rw [List.zipIdx_cons, List.filter_cons, refused, htail]
      simp only [hhead, decide_eq_true_eq]
      split <;> rfl

end Memory

theorem exists_decimalDigits (b : UInt8) :
    ∃ d₀ d₁ d₂ : UInt8, decimalDigits b = [d₀, d₁, d₂]
      ∧ (d₀.toNat < 10 ∧ d₁.toNat < 10 ∧ d₂.toNat < 10)
      ∧ 100 * d₀.toNat + 10 * d₁.toNat + d₂.toNat = b.toNat := by
  have hb := b.toNat_lt
  have h₁₀ : (10 : UInt8).toNat = 10 := rfl
  have h₁₀₀ : (100 : UInt8).toNat = 100 := rfl
  refine ⟨_, _, _, rfl, ?_⟩
  simp only [UInt8.toNat_mod, UInt8.toNat_div, h₁₀, h₁₀₀]
  omega

theorem Event.line_fontWrite (position : Fin 4096) (byte : UInt8) :
    (fontWrite position byte).line
      = "WARN Ignoring write of " ++ Hex.byte byte ++ " into font region at "
        ++ Hex.text 3 position.val := by
  have hname : "WARN" ++ " " ++ "Ignoring write of " = "WARN Ignoring write of " := by decide
  have hline : (fontWrite position byte).line
      = "WARN" ++ " " ++ ("Ignoring write of " ++ Hex.byte byte ++ " into font region at "
          ++ Hex.text 3 position.val) := rfl
  rw [hline, ← hname]
  simp only [String.append_assoc]

namespace Machine

/-- The outcome of storing these bytes from the index on. -/
structure Stores (m : Machine) (l : List UInt8) (o : Outcome) : Prop where
  covered : ∀ k (h : k < l.length),
    o.machine.memory.bytes.get (Memory.behind m.index k)
      = if Memory.InFont (Memory.behind m.index k)
        then m.memory.bytes.get (Memory.behind m.index k) else l[k]
  others : ∀ s, (∀ k < l.length, s ≠ Memory.behind m.index k) →
    o.machine.memory.bytes.get s = m.memory.bytes.get s
  rest : o.machine = { m with memory := o.machine.memory }
  events : o.events
    = (l.zipIdx.filter fun p => Memory.InFont (Memory.behind m.index p.2)).map
        fun p => .fontWrite (Memory.behind m.index p.2) p.1
  fault? : o.fault? = none

theorem stores_store (m : Machine) {l : List UInt8} (hl : l.length ≤ 4096) :
    m.Stores l (m.store m.index l) where
  covered k hk := m.memory.get_writeList_behind m.index hl hk
  others s hs := by
    refine m.memory.get_writeList_of_not_inSpan m.index l fun hspan => ?_
    obtain ⟨k, hk, rfl⟩ := Memory.inSpan_iff.mp hspan
    exact hs k hk rfl
  rest := rfl
  events := by
    show (Memory.refused m.index l).map _ = _
    rw [Memory.refused_eq, List.map_map]
    rfl
  fault? := rfl

/-- **What is stored.** A decimal stores the three digits of its register
and a save the registers up to its own. Each byte lies as many behind the
index as it comes in the list, unless that is in the font; then what was
there stays, and a warning names the byte and its place. The warnings come
in the order of the bytes. No other byte, no register and nothing else
changes, and nothing else is reported. -/
theorem stores_decimal_save (m : Machine) (x : Register) :
    (∃ d₀ d₁ d₂ : UInt8,
      (d₀.toNat < 10 ∧ d₁.toNat < 10 ∧ d₂.toNat < 10)
      ∧ 100 * d₀.toNat + 10 * d₁.toNat + d₂.toNat = (m.registers.get x).toNat
      ∧ m.Stores [d₀, d₁, d₂] (m.execute (.decimal x)))
    ∧ (∃ l : List UInt8,
      l.length = x.val + 1
      ∧ (∀ r ≤ x, l[r.val]? = some (m.registers.get r))
      ∧ m.Stores l (m.execute (.save x)))
    ∧ ∀ position byte,
        (Event.fontWrite position byte).line
          = "WARN Ignoring write of " ++ Hex.byte byte ++ " into font region at "
            ++ Hex.text 3 position.val := by
  refine ⟨?_, ?_, ?_⟩
  · obtain ⟨d₀, d₁, d₂, hdigits, hlt, hsum⟩ := exists_decimalDigits (m.registers.get x)
    refine ⟨d₀, d₁, d₂, hlt, hsum, ?_⟩
    rw [← hdigits]
    exact m.stores_store (by decide : 3 ≤ 4096)
  · have hlength := m.registers.length_takeTo x
    refine ⟨m.registers.takeTo x, hlength, fun r hr => m.registers.getElem?_takeTo hr, ?_⟩
    exact m.stores_store (by omega)
  · exact Event.line_fontWrite

/-- Three registers, saved through an address behind the end of memory: two
in front of the font and one into it. -/
theorem stores_up_to_font :
    let m : Machine :=
      { initial (.ofSeed 0) 0 with
        index := 0xF04E
        registers := Registers.zero.setFrom 0 [1, 2, 3] }
    let o := m.execute (.save 2)
    o.machine.memory.bytes.get 0x4F = 2
    ∧ o.machine.memory.bytes.get 0x50 = 0xF0
    ∧ o.machine.memory.bytes.get 0xA0 = 0
    ∧ o.events = [.fontWrite 0x50 3] := by
  intro m o
  obtain ⟨-, ⟨l, hlength, hl, hstores⟩, -⟩ := m.stores_decimal_save 2
  obtain ⟨b₀, b₁, b₂, rfl⟩ := List.length_eq_three.mp hlength
  obtain rfl : b₀ = 1 := Option.some.inj (hl 0 (by decide))
  obtain rfl : b₁ = 2 := Option.some.inj (hl 1 (by decide))
  obtain rfl : b₂ = 3 := Option.some.inj (hl 2 (by decide))
  have h₁ : Memory.behind m.index 1 = 0x4F := by decide
  have h₂ : Memory.behind m.index 2 = 0x50 := by decide
  have hbefore := hstores.covered 1 (by decide)
  have hinside := hstores.covered 2 (by decide)
  have hbehind := hstores.others 0xA0 (by decide)
  rw [h₁, if_neg (by decide)] at hbefore
  rw [h₂, if_pos (by decide)] at hinside
  have hfont : m.memory.bytes.get 0x50 = 0xF0 :=
    Memory.holds_initial 0x50 _ (Nat.le_refl _) rfl
  have hzero : m.memory.bytes.get 0xA0 = 0 := Memory.get_initial_of_not_inFont (by decide)
  refine ⟨hbefore, hinside.trans hfont, hbehind.trans hzero, hstores.events.trans ?_⟩
  decide

end Machine

end Chip8

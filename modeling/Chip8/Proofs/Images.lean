import Chip8.Instruction.Image
import Chip8.Proofs.Memory

/-!
# Programs and their images

A list of well-formed instructions and the bytes that it is assembled to
stand for each other. Of a program that was loaded the words are fetched as
they were laid out (`fetch_loaded`), so the image of a list gives the list
back (`fetch_assemble`). Bytes whose words all decode are the image of what
they decode to (`assemble_of_decode`), because a word is that of its
instruction and of no other.
-/

namespace Chip8

namespace Instruction

/-- Bytes whose words all decode are the image of what they decode to. -/
theorem assemble_of_decode {bs : List UInt8} {l : List Instruction}
    (hlen : bs.length = 2 * l.length)
    (h : ∀ k (hk : k < l.length), decode (.ofBytes bs[2 * k] bs[2 * k + 1]) = .ok l[k]) :
    (∀ i ∈ l, i.WellFormed) ∧ assemble l = bs := by
  -- on the instructions, each of which takes two bytes off
  induction l generalizing bs with
  | nil =>
      obtain rfl := List.length_eq_zero_iff.mp hlen
      exact ⟨fun i hi => absurd hi List.not_mem_nil, rfl⟩
  | cons i l ih =>
      match bs, hlen with
      | high :: low :: rest, hlen =>
          have hhead : decode (.ofBytes high low) = .ok i := h 0 (Nat.zero_lt_succ _)
          obtain ⟨hwf, hword⟩ := decode?_eq_some_iff.mp (decode_eq_ok_iff.mp hhead)
          have hrest : rest.length = 2 * l.length := by
            simp only [List.length_cons] at hlen
            omega
          obtain ⟨hl, hbytes⟩ := ih hrest fun k hk => h (k + 1) (Nat.succ_lt_succ hk)
          refine ⟨List.forall_mem_cons.mpr ⟨hwf, hl⟩, ?_⟩
          rw [assemble_cons, hbytes, bytes, hword, Word.high_ofBytes, Word.low_ofBytes]
          rfl

end Instruction

namespace Machine

/-- The words of a program lie in memory as they were laid out. -/
theorem fetch_loaded {program : List UInt8} {random : Generator} {created : Time} {k : Nat}
    {a : Address} (hlen : program.length ≤ 3584) (hk : k + 1 < program.length)
    (ha : a.toNat = 0x200 + k) :
    (loaded program random created).memory.fetch a
      = .ok (.ofBytes program[k] program[k + 1]) := by
  have hholds : (loaded program random created).memory.Holds 0x200 program :=
    Memory.holds_place _ _ _
  have hhigh : program[k]? = some program[k] := List.getElem?_eq_getElem (Nat.lt_of_succ_lt hk)
  have hlow : program[k + 1]? = some program[k + 1] := List.getElem?_eq_getElem hk
  exact hholds.fetch hhigh hlow ha (by omega)

theorem fetch_assemble {l : List Instruction} {random : Generator} {created : Time} {k : Nat}
    (hlen : l.length ≤ 1792) (hk : k < l.length) :
    (loaded (Instruction.assemble l) random created).memory.fetch (UInt16.ofNat (0x200 + 2 * k))
      = .ok l[k].encode := by
  have hbytes := Instruction.length_assemble l
  have ha : (UInt16.ofNat (0x200 + 2 * k)).toNat = 0x200 + 2 * k := by
    rw [UInt16.toNat_ofNat']
    omega
  have hget := Instruction.getElem?_assemble_high l k
  have hget' := Instruction.getElem?_assemble_low l k
  rw [List.getElem?_eq_getElem hk, Option.map_some] at hget hget'
  obtain ⟨_, hhigh⟩ := List.getElem?_eq_some_iff.mp hget
  obtain ⟨_, hlow⟩ := List.getElem?_eq_some_iff.mp hget'
  rw [fetch_loaded (by omega) (by omega) ha, hhigh, hlow, Word.ofBytes_high_low]

/-- **Programs and images correspond.** The image of well-formed
instructions can be loaded, and fetched and decoded in turn they are the
same instructions again, to the last word of memory. Bytes of which every
word decodes are the image of what they decode to, which is well formed.
And a word is refused, by its own name, exactly if it is that of no
well-formed instruction. -/
theorem images_of_programs :
    (∀ l : List Instruction, 1 ≤ l.length → l.length ≤ 1792 → (∀ i ∈ l, i.WellFormed) →
      ∀ random created, ∃ m, load (Instruction.assemble l) random created = .ok m
        ∧ ∀ k (hk : k < l.length),
            m.memory.fetch (UInt16.ofNat (0x200 + 2 * k)) >>= Instruction.decode = .ok l[k])
    ∧ (∀ (bs : List UInt8) (l : List Instruction) (_ : bs.length = 2 * l.length),
        (∀ k (hk : k < l.length),
          Instruction.decode (.ofBytes bs[2 * k] bs[2 * k + 1]) = .ok l[k]) →
        (∀ i ∈ l, i.WellFormed) ∧ Instruction.assemble l = bs)
    ∧ ∀ w f, Instruction.decode w = .error f ↔
        f = .unknownInstruction w ∧ ¬ ∃ i : Instruction, i.WellFormed ∧ i.encode = w := by
  refine ⟨?_, fun bs l hlen => Instruction.assemble_of_decode hlen, ?_⟩
  · intro l hpos hlen hl random created
    refine ⟨_, load_eq_ok_iff.mpr ⟨?_, rfl⟩, ?_⟩
    · rw [Instruction.length_assemble]
      omega
    · intro k hk
      rw [fetch_assemble hlen hk]
      have hwf := hl l[k] (List.getElem_mem hk)
      exact Instruction.decode_eq_ok_iff.mpr (Instruction.decode?_encode hwf)
  · intro w f
    rw [Instruction.decode_eq_error_iff, Instruction.decode?_eq_none_iff, and_comm]
    rfl

/-- Every field of a word at its largest, and a word that differs in its
last digit from one that is an instruction. -/
theorem images_of_programs_fields :
    let l : List Instruction := [.draw 10 11 15, .jump 0xFFF, .arith .shiftLeft 1 2]
    let bs : List UInt8 := [0xDA, 0xBF, 0x1F, 0xFF, 0x81, 0x2E]
    ((1 ≤ l.length ∧ l.length ≤ 1792 ∧ ∀ i ∈ l, i.WellFormed)
      ∧ ∃ _ : bs.length = 2 * l.length, ∀ k (hk : k < l.length),
          Instruction.decode (.ofBytes bs[2 * k] bs[2 * k + 1]) = .ok l[k])
    ∧ (∃ m, load (Instruction.assemble l) (.ofSeed 0) 0 = .ok m
        ∧ m.memory.fetch 0x204 >>= Instruction.decode = .ok (.arith .shiftLeft 1 2))
    ∧ Instruction.assemble l = bs
    ∧ ¬ ∃ i : Instruction, i.WellFormed ∧ i.encode = 0x812F := by
  intro l bs
  obtain ⟨himage, hbytes, hrefused⟩ := images_of_programs
  have hl : ∀ i ∈ l, i.WellFormed := by decide
  have hlen : bs.length = 2 * l.length := rfl
  have hwords : ∀ k (hk : k < l.length),
      Instruction.decode (.ofBytes bs[2 * k] bs[2 * k + 1]) = .ok l[k] := by
    have hdraw : Instruction.decode? (.ofBytes 0xDA 0xBF) = some (.draw 10 11 15) := by decide
    have hjump : Instruction.decode? (.ofBytes 0x1F 0xFF) = some (.jump 0xFFF) := by decide
    have hshift : Instruction.decode? (.ofBytes 0x81 0x2E) = some (.arith .shiftLeft 1 2) := by
      decide
    rintro (_ | _ | _ | k) hk
    case zero => exact Instruction.decode_eq_ok_iff.mpr hdraw
    case succ.zero => exact Instruction.decode_eq_ok_iff.mpr hjump
    case succ.succ.zero => exact Instruction.decode_eq_ok_iff.mpr hshift
    case succ.succ.succ => exact absurd hk (Nat.not_lt.mpr (Nat.le_add_left 3 k))
  have hunknown : Instruction.decode 0x812F = .error (.unknownInstruction 0x812F) := by
    refine Instruction.decode_eq_error_iff.mpr ⟨?_, rfl⟩
    decide
  obtain ⟨m, hload, hfetch⟩ := himage l (by decide) (by decide) hl (.ofSeed 0) 0
  refine ⟨⟨⟨by decide, by decide, hl⟩, hlen, hwords⟩, ⟨m, hload, hfetch 2 (by decide)⟩,
    (hbytes bs l hlen hwords).2, ?_⟩
  exact ((hrefused 0x812F (.unknownInstruction 0x812F)).mp hunknown).2

end Machine

end Chip8

import Chip8.Proofs.Memory

/-!
# What a cycle reports

`Machine.peek` gives a result and no machine, so looking ahead changes
nothing and reports nothing. The cycle that follows runs what was seen
(`cycle_of_peek`) and opens with a trace event that shows it, or it fails
for the reason that was seen and has no such event. An instruction reports
no trace event of its own (`severity_of_mem_events_execute`), so those of a
run are the openings of its cycles (`traces_reported`).
-/

namespace Chip8

namespace Outcome

/-- What a log with this threshold keeps of a step. -/
def lines (o : Outcome) (threshold : Severity) : List String :=
  (o.events.filter (·.Visible threshold)).map Event.line

theorem lines_trace (o : Outcome) : o.lines .trace = o.events.map Event.line := by
  have hall : ∀ e ∈ o.events, decide (e.Visible .trace) = true := fun e _ =>
    decide_eq_true (Nat.zero_le e.severity.rank)
  rw [lines, List.filter_eq_self.mpr hall]

theorem lines_announce (o : Outcome) (e : Event) :
    (o.announce e).lines .trace = e.line :: o.lines .trace := by
  rw [lines_trace, lines_trace, announce, List.map_cons]

end Outcome

namespace Machine

/-- The line that shows the instruction at the program counter. -/
def traceLine (m : Machine) (i : Instruction) : String :=
  "TRACE " ++ Hex.address m.pc ++ ": " ++ String.ofList (Hex.digits 4 m.word.toNat)
    ++ "  " ++ i.text

/-- What the next cycle opens with, if it decodes. -/
def opening? (m : Machine) : Option Event := m.peek.toOption.map (.decoded m.pc m.word)

/-- What a run reports. -/
def reported (m : Machine) : List Action → List Event
  | [] => []
  | a :: rest => (m.act a).events ++ (m.act a).machine.reported rest

theorem line_decoded (m : Machine) (i : Instruction) :
    (Event.decoded m.pc m.word i).line = m.traceLine i := by
  have hname : "TRACE" ++ " " = "TRACE " := by decide
  have hline : (Event.decoded m.pc m.word i).line
      = "TRACE" ++ " " ++ (Hex.address m.pc ++ ": "
          ++ String.ofList (Hex.digits 4 m.word.toNat) ++ "  " ++ i.text) := rfl
  unfold traceLine
  rw [hline, ← hname]
  simp only [String.append_assoc]

/-- The line that names a word which is no instruction. -/
def unknownLine (m : Machine) : String :=
  "DEBUG Unknown instruction: " ++ Hex.word m.word ++ " at " ++ Hex.address m.pc

theorem line_unknownInstruction (m : Machine) :
    (Event.unknownInstruction m.pc m.word).line = m.unknownLine := by
  have hname : "DEBUG" ++ " " ++ "Unknown instruction: " = "DEBUG Unknown instruction: " := by
    decide
  have hline : (Event.unknownInstruction m.pc m.word).line
      = "DEBUG" ++ " " ++ ("Unknown instruction: " ++ Hex.word m.word ++ " at "
          ++ Hex.address m.pc) := rfl
  unfold unknownLine
  rw [hline, ← hname]
  simp only [String.append_assoc]

/-! ## One cycle -/

theorem peek_of_decode?_eq_none {m : Machine} (h : m.pc.toNat ≤ 0xFFE)
    (hw : Instruction.decode? m.word = none) : m.peek = .error (.unknownInstruction m.word) := by
  rw [peek_of_le h]
  exact Instruction.decode_eq_error_iff.mpr ⟨hw, rfl⟩

theorem severity_of_mem_events_execute {m : Machine} {i : Instruction} {e : Event}
    (h : e ∈ (m.execute i).events) : e.severity ≠ .trace := by
  rcases of_mem_events_execute h with ⟨pc, rfl⟩ | ⟨position, byte, rfl⟩
  · rintro ⟨⟩
  · rintro ⟨⟩

theorem traces_cycle (m : Machine) (t : Time) :
    (m.cycle t).events.filter (·.severity = .trace) = m.opening?.toList := by
  rcases m.cycle_cases t with ⟨hlt, hc⟩ | ⟨hle, hw, hc⟩ | ⟨i, hi, hc⟩
  · rw [hc, opening?, peek_of_lt hlt]
    rfl
  · rw [hc, opening?, peek_of_decode?_eq_none hle hw]
    rfl
  · have hrest : ((m.tick t).stepOver.execute i).events.filter (·.severity = .trace) = [] := by
      rw [List.filter_eq_nil_iff]
      intro e he
      simpa using severity_of_mem_events_execute he
    rw [hc, opening?, hi, Outcome.announce, List.filter_cons_of_pos rfl, hrest]
    rfl

theorem traces_setKeys (m : Machine) (codes : List UInt8) :
    (m.setKeys codes).events.filter (·.severity = .trace) = [] := by
  rw [List.filter_eq_nil_iff]
  intro e he
  obtain ⟨code, -, rfl⟩ := List.mem_map.mp he
  simp [Event.severity]

/-! ## A run -/

theorem traces_reported (m : Machine) (l : List Action) :
    (m.reported l).filter (·.severity = .trace) = (m.cycled l).filterMap opening? := by
  induction l generalizing m with
  | nil => rfl
  | cons a l ih =>
      rw [reported, List.filter_append, ih]
      cases a with
      | cycle t =>
          rw [act, traces_cycle, cycled, List.filterMap_cons]
          cases m.opening? <;> rfl
      | setKeys codes => rw [act, traces_setKeys]; rfl

/-- **What is seen ahead is what is run and shown.** A cycle fails as the
look ahead does, with one line for an unknown word and none past the end of
memory. Where an instruction was seen, the cycle is that instruction on the
machine with its clock moved and its program counter at the next word, and
the line that shows it is the first one, come what may after. So a run has
one such line for each of its cycles that decoded, in order. -/
theorem cycle_as_peeked (m : Machine) (t : Time) (l : List Action) :
    let ready : Machine := { m with timers := m.timers.update t, pc := m.pc + 2 }
    (∀ f, m.peek = .error f →
        (m.cycle t).fault? = some f
        ∧ (f = .outOfBounds m.pc ∧ (m.cycle t).lines .trace = []
          ∨ f = .unknownInstruction m.word ∧ m.memory.fetch m.pc = .ok m.word
            ∧ (m.cycle t).lines .trace = [m.unknownLine]))
    ∧ (∀ i, m.peek = .ok i →
        m.memory.fetch m.pc = .ok m.word
        ∧ (m.pc + 2).toNat = m.pc.toNat + 2
        ∧ (m.cycle t).fault? = (ready.execute i).fault?
        ∧ (m.cycle t).machine = (ready.execute i).machine
        ∧ (m.cycle t).lines .trace = m.traceLine i :: (ready.execute i).lines .trace
        ∧ ∀ e ∈ (ready.execute i).events, e.severity ≠ .trace)
    ∧ ((m.reported l).filter (·.severity = .trace)).map Event.line
        = (m.cycled l).filterMap fun n => n.peek.toOption.map n.traceLine := by
  intro ready
  refine ⟨?_, ?_, ?_⟩
  · intro f hf
    rcases m.cycle_cases t with ⟨hlt, hc⟩ | ⟨hle, hw, hc⟩ | ⟨i, hi, -⟩
    · rw [peek_of_lt hlt] at hf
      obtain rfl := Except.error.inj hf
      rw [hc]
      exact ⟨rfl, Or.inl ⟨rfl, rfl⟩⟩
    · rw [peek_of_decode?_eq_none hle hw] at hf
      obtain rfl := Except.error.inj hf
      rw [hc, Outcome.lines_announce, line_unknownInstruction]
      exact ⟨rfl, Or.inr ⟨rfl, m.memory.fetch_of_le hle, rfl⟩⟩
    · rw [hi] at hf
      cases hf
  · intro i hi
    refine ⟨m.memory.fetch_of_le (peek_eq_ok_iff.mp hi).1, toNat_pc_add_two hi,
      fault?_cycle_of_peek t hi, machine_cycle_of_peek t hi, ?_, ?_⟩
    · rw [cycle_of_peek t hi, Outcome.lines_announce, line_decoded]
      rfl
    · intro e he
      exact severity_of_mem_events_execute he
  · rw [traces_reported, List.map_filterMap]
    refine congrArg (List.filterMap · (m.cycled l)) (funext fun n => ?_)
    rw [opening?, Option.map_map]
    exact congrArg (Option.map · _) (funext n.line_decoded)

/-- A call of itself shows its line, although the stack is full; neither
the end of the program nor that of memory shows one. -/
theorem cycle_as_peeked_of_selfCall :
    let m := loaded [0x22, 0x00] (.ofSeed 0) 0
    let full : Machine := { m with stack := ⟨Vector.replicate 16 0x202, 16, by decide⟩ }
    let done : Machine := { m with pc := 0x202 }
    let out : Machine := { m with pc := 0xFFF }
    (full.peek = .ok (.call 0x200)
      ∧ done.peek = .error (.unknownInstruction 0)
      ∧ out.peek = .error (.outOfBounds 0xFFF))
    ∧ (full.cycle 0).fault? = some (.stackOverflow 0x202)
    ∧ (full.cycle 0).lines .trace = ["TRACE 0x200: 2200  CALL 0x200"]
    ∧ (done.cycle 0).lines .trace = ["DEBUG Unknown instruction: 0x0000 at 0x202"]
    ∧ (out.cycle 0).lines .trace = [] := by
  intro m full done out
  have hfull : full.peek = .ok (.call 0x200) :=
    peek_of_program [0x22, 0x00] 0 rfl rfl (by decide) rfl rfl rfl
  have hword : done.word = 0 := by
    show Word.ofBytes (m.memory.read 0x202) (m.memory.read 0x203) = 0
    rw [read_loaded_of_le (by decide) (by decide), read_loaded_of_le (by decide) (by decide)]
    rfl
  have hdone : done.peek = .error (.unknownInstruction 0) := by
    rw [peek_of_decode?_eq_none (by decide) (by rw [hword]; rfl), hword]
  have hout : out.peek = .error (.outOfBounds 0xFFF) := peek_of_lt (by decide)
  obtain ⟨-, hrun, -⟩ := cycle_as_peeked full 0 []
  obtain ⟨-, -, hfault, -, hline, -⟩ := hrun _ hfull
  obtain ⟨herror, -, -⟩ := cycle_as_peeked done 0 []
  obtain ⟨-, ⟨hf, -⟩ | ⟨-, -, hunknown⟩⟩ := herror _ hdone
  · cases hf
  obtain ⟨herror', -, -⟩ := cycle_as_peeked out 0 []
  obtain ⟨-, ⟨-, hnone⟩ | ⟨hf, -⟩⟩ := herror' _ hout
  case inr => cases hf
  refine ⟨⟨hfull, hdone, hout⟩, hfault.trans ?_, hline.trans ?_, hunknown.trans ?_, hnone⟩
  · rw [fault?_execute]
    rfl
  · have hcall : full.word = 0x2200 :=
      (Instruction.decode?_eq_some_iff.mp (peek_eq_ok_iff.mp hfull).2).2.symm
    unfold traceLine
    rw [hcall]
    decide +kernel
  · unfold unknownLine
    rw [hword]
    decide +kernel

end Machine

end Chip8

import Mathlib.Data.List.DropRight
import Mathlib.Data.List.Sort
import Chip8.Proofs.Sessions

/-!
# Which keys count as held

What a key's number of frames is after some frames is known from the latest
event that was read for it (`Session.get_heldAfter`): what the event set
it to, less one for every frame since. So a key counts as held for six
frames, that of the event included, and not at all after a release.

The induction is on the last frame, in which all numbers go down before its
events are read, so that an event of the frame itself is not aged. Within the
frame the last event for a key is the one that stays
(`HeldKeys.get_noteAll`).

The keypad is set to the held keys once a frame, and they are keys; no other
code is ever reported (`Session.readsKeys_play`).
-/

namespace Chip8

/-! ## Held keys as a list -/

namespace HeldKeys

theorem mem_toList {h : HeldKeys} {code : Fin 16} :
    UInt8.ofNat code.val ∈ h.toList ↔ h.IsHeld code := by
  have hinjective : ∀ c : Fin 16, UInt8.ofNat c.val = UInt8.ofNat code.val ↔ c = code := by
    intro c
    rw [← UInt8.toNat_inj, UInt8.toNat_ofNat', UInt8.toNat_ofNat', Fin.ext_iff]
    omega
  simp [toList, hinjective]

theorem isKey_of_mem_toList {h : HeldKeys} {c : UInt8} (hc : c ∈ h.toList) : Keypad.IsKey c := by
  obtain ⟨code, -, rfl⟩ := List.mem_map.mp hc
  rw [Keypad.IsKey, UInt8.toNat_ofNat']
  omega

theorem strayCodes_toList (h : HeldKeys) : Keypad.strayCodes h.toList = [] := by
  rw [Keypad.strayCodes, List.filter_eq_nil_iff]
  intro c hc
  simpa using isKey_of_mem_toList hc

theorem pairwise_toList (h : HeldKeys) : h.toList.Pairwise (· < ·) := by
  have hcodes : (List.finRange 16).Pairwise (· < ·) := List.pairwise_lt_finRange 16
  refine List.pairwise_map.mpr ((hcodes.filter _).imp fun {a b} hab => ?_)
  have hlt : a.val < b.val := hab
  rw [UInt8.lt_iff_toNat_lt, UInt8.toNat_ofNat', UInt8.toNat_ofNat']
  omega

/-- Two ascending lists with the same members. -/
theorem toList_ofCodes_toList (h : HeldKeys) : (Keypad.ofCodes h.toList).toList = h.toList := by
  refine (Keypad.pairwise_toList _).eq_of_mem_iff h.pairwise_toList fun c => ?_
  rw [Keypad.mem_toList, Keypad.isDown_ofCodes_iff]
  exact ⟨fun hc => hc.2, fun hc => ⟨isKey_of_mem_toList hc, hc⟩⟩

theorem get_noteAll (h : HeldKeys) (events : List KeyEvent) (code : Fin 16) :
    (h.noteAll events).frames.get code
      = match (events.filter fun e => e.key.code? = some code).getLast? with
        | some e => framesOf e.action
        | Option.none => h.frames.get code := by
  induction events using List.reverseRecOn with
  | nil => rfl
  | append_singleton l e ih =>
      have hlast : h.noteAll (l ++ [e]) = (h.noteAll l).note e := List.foldl_append
      rw [hlast, get_note, List.filter_append, List.filter_singleton]
      by_cases hc : e.key.code? = some code
      · simp [hc]
      · simp [hc, ih]

theorem framesOf_eq (a : KeyAction) : framesOf a = if a = .release then 0 else 6 := by
  cases a <;> rfl

end HeldKeys

namespace Session

/-! ## The latest event for a key -/

/-- The key events of some frames in order, each with the number of its frame. -/
def reports (l : List Input) : List (Nat × KeyEvent) :=
  l.zipIdx.flatMap fun (i, n) => i.typed.map (n, ·)

/-- The latest event for a key of the keypad, and the number of its frame. -/
def latestReport? (l : List Input) (code : Fin 16) : Option (Nat × KeyEvent) :=
  ((reports l).filter fun r => r.2.key.code? = some code).getLast?

theorem reports_concat (l : List Input) (i : Input) :
    reports (l ++ [i]) = reports l ++ i.typed.map (l.length, ·) := by
  simp [reports, List.zipIdx_append]

theorem latestReport?_concat (l : List Input) (i : Input) (code : Fin 16) :
    latestReport? (l ++ [i]) code
      = match (i.typed.filter fun e => e.key.code? = some code).getLast? with
        | some e => some (l.length, e)
        | none => latestReport? l code := by
  unfold latestReport?
  rw [reports_concat, List.filter_append, List.getLast?_append, List.filter_map, List.getLast?_map]
  simp only [Function.comp_def]
  cases (i.typed.filter fun e => e.key.code? = some code).getLast? <;> rfl

theorem lt_of_latestReport? {l : List Input} {code : Fin 16} {n : Nat} {e : KeyEvent}
    (h : latestReport? l code = some (n, e)) : n < l.length := by
  have hmem : (n, e) ∈ reports l := List.mem_of_mem_filter (List.mem_of_getLast? h)
  obtain ⟨⟨i, k⟩, hk, he⟩ := List.mem_flatMap.mp hmem
  obtain ⟨e', -, heq⟩ := List.mem_map.mp he
  cases heq
  exact (List.mem_zipIdx' hk).1

theorem get_heldAfter (l : List Input) (code : Fin 16) :
    (heldAfter .none l).frames.get code
      = match latestReport? l code with
        | some (n, e) => HeldKeys.framesOf e.action - (l.length - (n + 1))
        | none => 0 := by
  induction l using List.reverseRecOn with
  | nil => exact HeldKeys.get_none code
  | append_singleton l i ih =>
      have hlast : heldAfter .none (l ++ [i]) = (heldAfter .none l).age.noteAll i.typed :=
        List.foldl_append
      rw [hlast, HeldKeys.get_noteAll, latestReport?_concat]
      cases (i.typed.filter fun e => e.key.code? = some code).getLast? with
      | some e => simp
      | none =>
          simp only [HeldKeys.get_age, ih]
          cases h : latestReport? l code with
          | none => rfl
          | some r =>
              have hlt : r.1 < l.length := lt_of_latestReport? h
              simp only [List.length_append, List.length_singleton]
              omega

theorem isHeld_heldAfter_iff {l : List Input} {code : Fin 16} :
    (heldAfter .none l).IsHeld code ↔
      ∃ n e, latestReport? l code = some (n, e) ∧ e.action ≠ .release
        ∧ n < l.length ∧ l.length ≤ n + 6 := by
  show 0 < (heldAfter .none l).frames.get code ↔ _
  rw [get_heldAfter]
  cases h : latestReport? l code with
  | none => simp
  | some r =>
      obtain ⟨n, e⟩ := r
      have hlt : n < l.length := lt_of_latestReport? h
      simp only [HeldKeys.framesOf_eq, Option.some.injEq, Prod.mk.injEq]
      constructor
      · intro hpos
        split at hpos
        · omega
        · rename_i hne
          exact ⟨n, e, ⟨rfl, rfl⟩, hne, hlt, by omega⟩
      · rintro ⟨n, e, ⟨rfl, rfl⟩, hne, -, hle⟩
        rw [if_neg hne]
        omega

end Session

/-! ## Stray codes -/

namespace Machine

theorem strayKey_not_mem_cycle (m : Machine) (t : Time) (code : UInt8) :
    .strayKey code ∉ (m.cycle t).events := by
  intro h
  rcases m.cycle_cases t with ⟨-, hc⟩ | ⟨-, -, hc⟩ | ⟨i, -, hc⟩
  · rw [hc] at h
    cases h
  · rw [hc] at h
    cases List.mem_singleton.mp h
  · rw [hc] at h
    rcases List.mem_cons.mp h with h | h
    · cases h
    · rcases of_mem_events_execute h with ⟨pc, he⟩ | ⟨position, byte, he⟩ <;> cases he

theorem strayKey_not_mem_go (threshold : Severity) (clock : Nat → Time) (count : Nat)
    (m : Machine) {events : Array Event} (completed : Nat) {code : UInt8}
    (h : .strayKey code ∉ events.toList) :
    .strayKey code ∉ (advance.go threshold clock count m events completed).events.toList := by
  induction count generalizing m events completed with
  | zero => exact h
  | succ count ih =>
      have hcycle : .strayKey code ∉ (m.cycle (clock completed)).events :=
        m.strayKey_not_mem_cycle _ code
      have hnext : .strayKey code ∉ (events.appendList
          ((m.cycle (clock completed)).events.filter (·.Visible threshold))).toList := by
        simp [h, hcycle]
      rw [advance.go]
      split
      · exact hnext
      · exact ih _ _ hnext

theorem keypad_advance (threshold : Severity) (clock : Nat → Time) (count : Nat) (m : Machine) :
    (m.advance threshold clock count).machine.keypad = m.keypad := by
  have hcycles : ∀ a ∈ cycles clock count, ∃ t, a = .cycle t := fun a =>
    exists_cycle_of_mem_cycles
  rw [(m.advance_eq_follow threshold clock count).1]
  rcases m.follow_cases (cycles clock count) with hnone | ⟨k, f, -, hbefore, hfault⟩
  · rw [follow_of_faults_eq_none hnone]
    exact keypad_run_of_cycles hcycles
  · rw [follow_of_fault hbefore hfault]
    exact keypad_run_of_cycles fun a ha => hcycles a (List.mem_of_mem_take ha)

end Machine

/-! ## The keypad of a session -/

namespace Session

variable {s : Session} {i : Input} {l : List Input}

/-- Of some frames the keys were read up to the one that did not come to its
end, the keypad was set to what they left, and it was no code of no key. -/
structure ReadsKeys (s : Session) (l : List Input) (o : Played) : Prop where
  held : o.session.held = heldAfter s.held (l.take (o.completed + 1))
  keypad : o.session.machine.keypad = .ofCodes o.session.held.toList
  events : ∀ code, .strayKey code ∉ o.events

theorem runCycles_spec (s : Session) (threshold : Severity) (clock : Nat → Time) :
    let p := s.machine.advance threshold clock s.settings.perFrame
    let f := s.runCycles threshold clock
    f.session.held = s.held ∧ f.session.machine = p.machine ∧ f.events = p.events.toList := by
  cases h : (s.machine.advance threshold clock s.settings.perFrame).halt? with
  | some halt =>
      rw [runCycles_of_some h]
      exact ⟨rfl, rfl, rfl⟩
  | none =>
      rw [runCycles_of_none h]
      exact ⟨rfl, rfl, rfl⟩

theorem frame_spec (threshold : Severity) (h : ¬ Quits i.typed) :
    let f := s.frame threshold i.clock i.typed
    f.session.held = s.held.age.noteAll i.typed
    ∧ f.session.machine.keypad = .ofCodes f.session.held.toList
    ∧ ∀ code, .strayKey code ∉ f.events := by
  obtain ⟨hheld, hmachine, hevents⟩ := (s.readKeys i.typed).1.runCycles_spec threshold i.clock
  have hquiet : (s.readKeys i.typed).2 = [] := by
    show (Keypad.strayCodes (s.held.age.noteAll i.typed).toList).map Event.strayKey = []
    rw [HeldKeys.strayCodes_toList, List.map_nil]
  rw [frame_of_not_quits threshold h]
  refine ⟨hheld, ?_, fun code => ?_⟩
  · rw [hmachine, Machine.keypad_advance, hheld]
    rfl
  · rw [hquiet, List.nil_append, hevents]
    exact Machine.strayKey_not_mem_go _ _ _ _ _ List.not_mem_nil

theorem readsKeys_play (hs : s.machine.keypad = .ofCodes s.held.toList) (threshold : Severity)
    (hl : ∀ i ∈ l, ¬ Quits i.typed) : ReadsKeys s l (s.play threshold l) := by
  induction l generalizing s with
  | nil => exact ⟨rfl, hs, fun _ => List.not_mem_nil⟩
  | cons i l ih =>
      obtain ⟨hi, hl⟩ := List.forall_mem_cons.mp hl
      obtain ⟨hheld, hkeypad, hevents⟩ := frame_spec (s := s) threshold hi
      cases hend : (s.frame threshold i.clock i.typed).ending? with
      | some ending =>
          rw [play_cons_of_some hend]
          exact ⟨hheld, hkeypad, hevents⟩
      | none =>
          obtain ⟨hheld', hkeypad', hevents'⟩ := ih hkeypad hl
          rw [play_cons_of_none hend]
          refine ⟨?_, hkeypad', fun code hmem => ?_⟩
          · rw [hheld', hheld]
            rfl
          · rcases List.mem_append.mp hmem with hmem | hmem
            · exact hevents code hmem
            · exact hevents' code hmem

theorem keys_of_start {settings : Settings} {contents : Except ReadError (List UInt8)}
    {random : Generator} {created : Time} {events : List Event}
    (h : start settings contents random created = .ok (s, events)) :
    s.held = .none ∧ s.machine.keypad = .none := by
  unfold start at h
  split at h
  · cases h
  · split at h
    · cases h
    · rename_i program _ m hm
      cases h
      obtain ⟨-, rfl⟩ := Machine.load_eq_ok_iff.mp hm
      exact ⟨rfl, rfl⟩

/-- **A key counts as held for six frames.** In every frame the held keys are
those whose latest event so far is no release and was read in this frame or
one of the five before. They come in ascending order, all of them are keys,
and so a keypad set to them has just these keys down and nothing to report.
A session has its keypad set to them in each of its frames, up to the one in
which a cycle fails, and reports no stray code in any. -/
theorem held_window {settings : Settings} {contents : Except ReadError (List UInt8)}
    {random : Generator} {created : Time} {events : List Event}
    (hs : start settings contents random created = .ok (s, events))
    (hl : ∀ i ∈ l, ¬ Quits i.typed) (threshold : Severity) :
    let o := s.play threshold l
    (∀ frame < l.length,
      let frames := l.take (frame + 1)
      let codes := (heldAfter .none frames).toList
      (∀ key : Fin 16, UInt8.ofNat key.val ∈ codes ↔
        ∃ n e, latestReport? frames key = some (n, e) ∧ e.action ≠ .release
          ∧ n ≤ frame ∧ frame ≤ n + 5)
      ∧ codes.Pairwise (· < ·) ∧ (∀ c ∈ codes, c < 16)
      ∧ (Keypad.ofCodes codes).toList = codes
      ∧ ∀ m : Machine, (m.setKeys codes).events = [])
    ∧ o.session.held = heldAfter .none (l.take (o.completed + 1))
    ∧ o.session.machine.keypad = .ofCodes o.session.held.toList
    ∧ ∀ code, .strayKey code ∉ o.events := by
  intro o
  obtain ⟨hheld, hkeypad⟩ := keys_of_start hs
  have hstart : s.machine.keypad = .ofCodes s.held.toList := by
    rw [hheld, hkeypad]
    rfl
  obtain ⟨hread, hset, hquiet⟩ := readsKeys_play hstart threshold hl
  rw [hheld] at hread
  refine ⟨?_, hread, hset, hquiet⟩
  intro frame hframe frames codes
  have hlength : frames.length = frame + 1 := by
    rw [List.length_take]
    omega
  refine ⟨fun key => ?_, HeldKeys.pairwise_toList _, fun c hc => ?_,
    HeldKeys.toList_ofCodes_toList _, fun m => ?_⟩
  · rw [HeldKeys.mem_toList, isHeld_heldAfter_iff, hlength]
    simp only [Nat.lt_succ_iff, Nat.succ_le_succ_iff]
  · exact UInt8.lt_iff_toNat_lt.mpr (HeldKeys.isKey_of_mem_toList hc)
  · show (Keypad.strayCodes codes).map Event.strayKey = []
    rw [HeldKeys.strayCodes_toList, List.map_nil]

/-- A key that was pressed in the first of seven frames is held in the sixth
and no longer in the seventh, one that repeated in the second frame still is,
and one that was let go at once is not held at all. -/
theorem held_window_of_three_keys :
    let program : List UInt8 := [0x12, 0x00]
    let settings : Settings := ⟨"keys.ch8", 60, 60, none, by decide, by decide⟩
    let s : Session := ⟨settings, Machine.loaded program (.ofSeed 0) 0, .none, .silent⟩
    let first : Input :=
      ⟨fun _ => 0, [.key ⟨.char 'Q', .press⟩, .key ⟨.char 'v', .press⟩, .key ⟨.char 'v', .release⟩]⟩
    let second : Input := ⟨fun _ => 0, [.key ⟨.char 'x', .repeated⟩, .key ⟨.char 'p', .press⟩]⟩
    let idle : Input := ⟨fun _ => 0, [.other]⟩
    let l := [first, second, idle, idle, idle, idle, idle]
    let codes (frame : Nat) : List UInt8 := (heldAfter .none (l.take (frame + 1))).toList
    ((start settings (.ok program) (.ofSeed 0) 0).map Prod.fst = .ok s ∧ ∀ i ∈ l, ¬ Quits i.typed)
    ∧ (0x4 ∈ codes 5 ∧ 0x4 ∉ codes 6)
    ∧ 0x0 ∈ codes 6
    ∧ 0xF ∉ codes 0
    ∧ ∀ code, .strayKey code ∉ (s.play .warn l).events := by
  intro program settings s first second idle l codes
  have hm : Machine.load program (.ofSeed 0) 0 = .ok s.machine :=
    Machine.load_eq_ok_iff.mpr ⟨by decide, rfl⟩
  obtain ⟨events, hs⟩ : ∃ events, start settings (.ok program) (.ofSeed 0) 0 = .ok (s, events) := by
    simp only [start, hm]
    exact ⟨_, rfl⟩
  have hl : ∀ i ∈ l, ¬ Quits i.typed := by decide
  obtain ⟨hwindow, -, -, hquiet⟩ := held_window hs hl .warn
  obtain ⟨hfirst, -⟩ := hwindow 0 (by decide)
  obtain ⟨hsixth, -⟩ := hwindow 5 (by decide)
  obtain ⟨hseventh, -⟩ := hwindow 6 (by decide)
  have hpress (frame : Nat) (h : frame = 5 ∨ frame = 6) :
      latestReport? (l.take (frame + 1)) 0x4 = some (0, ⟨.char 'Q', .press⟩) := by
    rcases h with rfl | rfl <;> rfl
  refine ⟨⟨by rw [hs]; rfl, hl⟩, ⟨(hsixth 0x4).mpr ?_, fun h => ?_⟩, (hseventh 0x0).mpr ?_,
    fun h => ?_, hquiet⟩
  · exact ⟨0, _, hpress 5 (Or.inl rfl), by decide, by decide, by decide⟩
  · obtain ⟨n, e, he, -, -, hle⟩ := (hseventh 0x4).mp h
    rw [hpress 6 (Or.inr rfl)] at he
    cases he
    exact absurd hle (by decide)
  · exact ⟨1, ⟨.char 'x', .repeated⟩, rfl, by decide, by decide, by decide⟩
  · obtain ⟨n, e, he, hne, -⟩ := (hfirst 0xF).mp h
    have hrelease : latestReport? (l.take 1) 0xF = some (0, ⟨.char 'v', .release⟩) := rfl
    rw [hrelease] at he
    cases he
    exact hne rfl

end Session

end Chip8

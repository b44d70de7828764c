import Mathlib.Data.List.Nodup
import Chip8.Proofs.Sessions

/-!
# A command line in any order

A line that gives the ROM, and some of the options once each, says the same in
every order and in both spellings of an option (`Arguments.parse_of_spells`).

The line read so far counts only by the draft it settles to. Each thing the
line says changes that draft and leaves another line that settles
(`Line.addAll_rom`, `Line.addAll_apart`, `Line.addAll_joined`), whether the
reader checks it at once or keeps it waiting, as long as the draft does not
have it yet. So a line puts its items into the draft one by one
(`Line.addAll_of_spells`), and since different items go to different places of
the draft, their order is lost there (`Draft.foldl_put_of_perm`).
-/

namespace Chip8

def Setting.name : Setting → String
  | ips => "ips"
  | frameRate => "frame-rate"
  | seed => "seed"

/-! ## Numbers as text -/

namespace Unsigned

theorem head?_ne_dash_of_ofText? {text : String} {value : UInt64}
    (h : ofText? text = some value) : text.toList.head? ≠ some '-' := by
  unfold ofText? at h
  cases hl : text.toList with
  | nil => simp
  | cons c l =>
      intro hc
      obtain rfl : c = '-' := Option.some.inj hc
      rw [hl] at h
      cases h

end Unsigned

namespace Arguments

/-! ## What a line says -/

/-- One thing that a command line says. -/
inductive Item where
  | rom (text : String)
  | number (setting : Setting) (value : UInt64)
deriving Repr, DecidableEq

/-- The option that the item is about, if it is not about the ROM. -/
def Item.subject : Item → Option Setting
  | rom _ => none
  | number setting _ => some setting

/-- A text that is given as the ROM and looks like no option. -/
def IsRom (text : String) : Prop :=
  text ≠ "" ∧ (text.toList.head? = some '-' → text = "-")

/-- The arguments say these items in this order. The value of an option is an
argument of its own or joined to the option by an equals sign. -/
inductive Spells : List Item → List String → Prop where
  | nil : Spells [] []
  | rom {text : String} {items : List Item} {line : List String} :
      IsRom text → Spells items line → Spells (.rom text :: items) (text :: line)
  | apart {setting : Setting} {text : String} {value : UInt64} {items : List Item}
      {line : List String} :
      Unsigned.ofText? text = some value → Spells items line →
        Spells (.number setting value :: items) (("--" ++ setting.name) :: text :: line)
  | joined {setting : Setting} {text : String} {value : UInt64} {items : List Item}
      {line : List String} :
      Unsigned.ofText? text = some value → Spells items line →
        Spells (.number setting value :: items) (("--" ++ setting.name ++ "=" ++ text) :: line)

/-! ## Arguments by their form -/

namespace Token

theorem ofText_name (setting : Setting) :
    ofText ("--" ++ setting.name) = .option setting none := by
  cases setting <;> rfl

theorem ofText_joined (setting : Setting) (text : String) :
    ofText ("--" ++ setting.name ++ "=" ++ text) = .option setting (some text) := by
  cases setting <;> simp [ofText, ofLong, splitEquals, Setting.name, setting?]

theorem ofText_plain {text : String} (h : text.toList.head? = some '-' → text = "-") :
    ofText text = .plain text := by
  cases hl : text.toList with
  | nil => simp [ofText, hl]
  | cons c l =>
      by_cases hc : c = '-'
      · obtain rfl : text = "-" := h (by rw [hl, hc]; rfl)
        rfl
      · unfold ofText
        rw [hl]
        split <;> simp_all

end Token

/-! ## Drafts -/

namespace Draft

variable {d : Draft} {i j : Item}

/-- Takes up what an item says. -/
def put (d : Draft) : Item → Draft
  | .rom text => { d with rom? := some text }
  | .number setting value => d.set value setting

/-- What a draft has, item by item. -/
def items (d : Draft) : List Item :=
  (d.rom?.map .rom).toList ++ (d.ips?.map (.number .ips)).toList
    ++ (d.frameRate?.map (.number .frameRate)).toList ++ (d.seed?.map (.number .seed)).toList

theorem foldl_put_items (d : Draft) : d.items.foldl put empty = d := by
  obtain ⟨rom?, ips?, frameRate?, seed?⟩ := d
  cases rom? <;> cases ips? <;> cases frameRate? <;> cases seed? <;> rfl

theorem nodup_items (d : Draft) : (d.items.map Item.subject).Nodup := by
  obtain ⟨rom?, ips?, frameRate?, seed?⟩ := d
  cases rom? <;> cases ips? <;> cases frameRate? <;> cases seed? <;>
    simp [items, Item.subject]

theorem put_comm (d : Draft) (hne : i.subject ≠ j.subject) :
    (d.put i).put j = (d.put j).put i := by
  cases i with
  | rom text =>
      cases j with
      | rom text' => exact absurd rfl hne
      | number setting value => cases setting <;> rfl
  | number setting value =>
      cases j with
      | rom text => cases setting <;> rfl
      | number setting' value' =>
          have hdiff : setting ≠ setting' := fun heq => hne (congrArg some heq)
          exact set_comm hdiff d value value'

/-- The order is lost where different items go to different places. -/
theorem foldl_put_of_perm {items₁ items₂ : List Item} (h : items₁.Perm items₂)
    (hnodup : (items₁.map Item.subject).Nodup) (d : Draft) :
    items₁.foldl put d = items₂.foldl put d := by
  refine h.foldl_eq' (fun i hi j hj d => ?_) d
  by_cases heq : i = j
  · rw [heq]
  · exact put_comm d fun hsubject => heq (List.inj_on_of_nodup_map hnodup hi hj hsubject)

/-- The draft has nothing yet that the item is about. -/
def Lacks (d : Draft) : Item → Prop
  | .rom _ => d.rom? = none
  | .number setting _ => d.get? setting = none

theorem lacks_empty (i : Item) : empty.Lacks i := by
  cases i with
  | rom text => rfl
  | number setting value => cases setting <;> rfl

theorem Lacks.put (h : d.Lacks j) (hne : i.subject ≠ j.subject) : (d.put i).Lacks j := by
  cases i with
  | rom text =>
      cases j with
      | rom text' => exact absurd rfl hne
      | number setting value => cases setting <;> exact h
  | number setting value =>
      cases j with
      | rom text => exact (d.rom?_set value setting).trans h
      | number setting' value' =>
          have hdiff : setting ≠ setting' := fun heq => hne (congrArg some heq)
          exact (get?_set_of_ne hdiff d value).trans h

/-- The items are about different things, and the draft has none of them yet. -/
structure Awaits (d : Draft) (items : List Item) : Prop where
  nodup : (items.map Item.subject).Nodup
  lacks : ∀ i ∈ items, d.Lacks i

theorem Awaits.head {items : List Item} (h : d.Awaits (i :: items)) : d.Lacks i :=
  h.lacks i (List.mem_cons_self ..)

theorem Awaits.tail {items : List Item} (h : d.Awaits (i :: items)) : (d.put i).Awaits items := by
  obtain ⟨hi, hnodup⟩ := List.nodup_cons.mp h.nodup
  refine ⟨hnodup, fun j hj => (h.lacks j (List.mem_cons_of_mem i hj)).put fun heq => hi ?_⟩
  rw [heq]
  exact List.mem_map_of_mem hj

end Draft

/-! ## Reading a line -/

namespace Line

variable {l : Line} {d : Draft}

theorem hasRom_iff_of_settle (h : l.settle = .ok d) : l.HasRom ↔ d.rom?.isSome := by
  obtain ⟨draft, waiting⟩ := l
  cases waiting with
  | nothing =>
      cases h
      simp [HasRom]
  | option setting => cases h
  | value setting text =>
      have hrom : d.rom? = draft.rom? := Draft.rom?_of_give h
      simp [HasRom, hrom]
  | rom text =>
      simp only [settle] at h
      split at h
      · cases h
      · cases h
        simp [HasRom]

theorem addPlain_of_settle (h : l.settle = .ok d) (text : String) :
    l.addPlain text = l.addRom text := by
  obtain ⟨draft, waiting⟩ := l
  cases waiting with
  | option setting => cases h
  | _ => rfl

theorem addAll_rom {text : String} (h : l.settle = .ok d) (hd : d.Lacks (.rom text))
    (htext : IsRom text) (rest : List String) :
    ∃ l' : Line, l.addAll (text :: rest) = l'.addAll rest ∧ l'.settle = .ok (d.put (.rom text)) := by
  have hnone : d.rom? = none := hd
  have hrom : ¬ l.HasRom := by simp [hasRom_iff_of_settle h, hnone]
  have hadd : l.addPlain text = .ok ⟨d, .rom text⟩ := by
    rw [addPlain_of_settle h, addRom, if_neg hrom, h]
  refine ⟨⟨d, .rom text⟩, ?_, ?_⟩
  · simp only [addAll, Token.ofText_plain htext.2, hadd]
  · simp [settle, htext.1, Draft.put]

/-- The value waits until what follows shows that the option has no other. -/
theorem addAll_apart {setting : Setting} {text : String} {value : UInt64}
    (h : l.settle = .ok d) (hd : d.Lacks (.number setting value))
    (htext : Unsigned.ofText? text = some value) (rest : List String) :
    ∃ l' : Line, l.addAll (("--" ++ setting.name) :: text :: rest) = l'.addAll rest
      ∧ l'.settle = .ok (d.put (.number setting value)) := by
  have hplain : Token.ofText text = .plain text :=
    Token.ofText_plain fun hdash => absurd hdash (Unsigned.head?_ne_dash_of_ofText? htext)
  have hadd : l.addOption setting none = .ok ⟨d, .option setting⟩ := by rw [addOption, h]
  refine ⟨⟨d, .value setting text⟩, ?_, Draft.give_of_some hd htext⟩
  simp only [addAll, Token.ofText_name, hadd, hplain, addPlain]

theorem addAll_joined {setting : Setting} {text : String} {value : UInt64}
    (h : l.settle = .ok d) (hd : d.Lacks (.number setting value))
    (htext : Unsigned.ofText? text = some value) (rest : List String) :
    ∃ l' : Line, l.addAll (("--" ++ setting.name ++ "=" ++ text) :: rest) = l'.addAll rest
      ∧ l'.settle = .ok (d.put (.number setting value)) := by
  have hgive : d.give setting text = .ok (d.put (.number setting value)) :=
    Draft.give_of_some hd htext
  have hadd : l.addOption setting (some text)
      = .ok ⟨d.put (.number setting value), .nothing⟩ := by
    simp only [addOption, h, hgive]
  refine ⟨⟨d.put (.number setting value), .nothing⟩, ?_, rfl⟩
  simp only [addAll, Token.ofText_joined, hadd]

/-- A line takes up its items one by one. -/
theorem addAll_of_spells {items : List Item} {line : List String} (hline : Spells items line)
    (h : l.settle = .ok d) (hd : d.Awaits items) :
    ∃ l' : Line, l.addAll line = .ok l' ∧ l'.settle = .ok (items.foldl Draft.put d) := by
  induction hline generalizing l d with
  | nil => exact ⟨l, rfl, h⟩
  | rom htext _ ih =>
      obtain ⟨l', hl', hsettle⟩ := addAll_rom h hd.head htext _
      rw [hl']
      exact ih hsettle hd.tail
  | apart htext _ ih =>
      obtain ⟨l', hl', hsettle⟩ := addAll_apart h hd.head htext _
      rw [hl']
      exact ih hsettle hd.tail
  | joined htext _ ih =>
      obtain ⟨l', hl', hsettle⟩ := addAll_joined h hd.head htext _
      rw [hl']
      exact ih hsettle hd.tail

end Line

/-- A line that says what a draft has is read as the draft, in whatever order it says it. -/
theorem parse_of_spells {d : Draft} {items : List Item} {line : List String}
    (hitems : items.Perm d.items) (hline : Spells items line) : parse line = ofDraft d := by
  have hnodup : (items.map Item.subject).Nodup :=
    (hitems.map Item.subject).nodup_iff.mpr d.nodup_items
  have hempty : Line.empty.settle = .ok Draft.empty := rfl
  obtain ⟨l, hadd, hsettle⟩ :=
    Line.addAll_of_spells hline hempty ⟨hnodup, fun i _ => Draft.lacks_empty i⟩
  rw [Draft.foldl_put_of_perm hitems hnodup, Draft.foldl_put_items] at hsettle
  simp only [parse, hadd, hsettle, bind, Except.bind]

end Arguments

namespace Settings

open Arguments (Spells)

/-- **Accepted settings run, and the order of the line does not matter.**
Arguments are refused just if the frame rate is zero, which is reported first,
or above the number of instructions per second. Otherwise a frame has as many
instructions as fit, at least one, and a session with these settings runs all
of them in every frame that is not told to quit, or some if one fails, but
never none. A line that gives the ROM and some of the options, once each, is
read without complaint. Its settings, or why there are none, are the same in
any order and either spelling, and an option that is left out has its usual
value. -/
theorem runnable_in_any_order :
    (∀ a : Arguments,
      ((∃ s, ofArguments a = .ok s) ↔ 0 < a.frameRate ∧ a.frameRate ≤ a.ips)
      ∧ (a.frameRate = 0 → ofArguments a = .error .zeroFrameRate)
      ∧ (0 < a.frameRate → a.ips < a.frameRate →
          ofArguments a = .error (.tooSlow a.ips a.frameRate)))
    ∧ (∀ a s, ofArguments a = .ok s →
        (s.rom = a.rom ∧ s.ips = a.ips ∧ s.frameRate = a.frameRate ∧ s.seed? = a.seed?)
        ∧ 0 < s.perFrame
        ∧ s.perFrame * a.frameRate.toNat ≤ a.ips.toNat
        ∧ a.ips.toNat < (s.perFrame + 1) * a.frameRate.toNat
        ∧ ∀ (session : Session) (threshold : Severity) (i : Session.Input),
            session.settings = s → ¬ Session.Quits i.typed →
            let f := session.frame threshold i.clock i.typed
            let codes := (session.held.age.noteAll i.typed).toList
            f.session.settings = s
            ∧ ∃ count, 0 < count ∧ count ≤ s.perFrame
              ∧ f.session.machine
                = session.machine.run (.setKeys codes :: Machine.cycles i.clock count)
              ∧ (f.ending? = none → count = s.perFrame))
    ∧ ∀ rom ips? frameRate? seed? items line,
        items.Perm (Arguments.Draft.items ⟨some rom, ips?, frameRate?, seed?⟩) →
        Spells items line →
        (Arguments.parse line).map ofArguments
          = .ok (ofArguments ⟨rom, ips?.getD 700, frameRate?.getD 60, seed?⟩) := by
  refine ⟨fun a => ⟨exists_ofArguments_eq_ok_iff, ofArguments_of_zero, ofArguments_of_lt⟩,
    fun a s hs => ?_, ?_⟩
  · obtain ⟨hrom, hips, hrate, hseed⟩ := ofArguments_eq_ok_iff.mp hs
    refine ⟨⟨hrom, hips, hrate, hseed⟩, s.perFrame_pos, ?_, ?_, ?_⟩
    · rw [← hips, ← hrate]
      exact s.perFrame_mul_le
    · rw [← hips, ← hrate]
      exact s.lt_perFrame_add_one_mul
    · rintro session threshold i rfl hquits
      exact ⟨session.settings_frame threshold i,
        Session.exists_cycles_frame threshold hquits session.settings.perFrame_pos⟩
  · intro rom ips? frameRate? seed? items line hitems hline
    rw [Arguments.parse_of_spells hitems hline]
    rfl

/-- A frame rate above the usual number of instructions is refused in two orders,
with each number written in two ways. Forty instructions a frame are accepted,
and one of them at least is run. -/
theorem runnable_in_any_order_of_two_lines :
    let given : Arguments.Draft := ⟨some "-", none, some 701, some 9⟩
    let items₁ : List Arguments.Item := [.number .frameRate 701, .rom "-", .number .seed 9]
    let items₂ : List Arguments.Item := [.number .seed 9, .number .frameRate 701, .rom "-"]
    let line₁ : List String := ["--frame-rate=+701", "-", "--seed", "009"]
    let line₂ : List String := ["--seed=9", "--frame-rate", "701", "-"]
    let idle : Session.Input := ⟨fun _ => 0, [.other]⟩
    let codes : List UInt8 := (HeldKeys.none.age.noteAll idle.typed).toList
    ((items₁.Perm given.items ∧ Spells items₁ line₁)
      ∧ items₂.Perm given.items ∧ Spells items₂ line₂
      ∧ ¬ Session.Quits idle.typed)
    ∧ (Arguments.parse line₁).map ofArguments = .ok (.error (.tooSlow 700 701))
    ∧ (Arguments.parse line₂).map ofArguments = .ok (.error (.tooSlow 700 701))
    ∧ ∃ s, ofArguments ⟨"g.ch8", 1200, 30, none⟩ = .ok s ∧ s.perFrame = 40
      ∧ ∃ count, 0 < count ∧ count ≤ 40
        ∧ let m := Machine.loaded [0x12, 0x00] (.ofSeed 0) 0
          (Session.frame ⟨s, m, .none, .silent⟩ .warn idle.clock idle.typed).session.machine
            = m.run (.setKeys codes :: Machine.cycles idle.clock count) := by
  intro given items₁ items₂ line₁ line₂ idle codes
  obtain ⟨haccepted, hruns, hread⟩ := runnable_in_any_order
  -- the two lines
  have hrom : Arguments.IsRom "-" := ⟨by decide, fun _ => rfl⟩
  have hplus : Unsigned.ofText? "+701" = some 701 := rfl
  have hzeros : Unsigned.ofText? "009" = some 9 := rfl
  have hrate : Unsigned.ofText? "701" = some 701 := rfl
  have hseed : Unsigned.ofText? "9" = some 9 := rfl
  have hperm₁ : items₁.Perm given.items := by decide
  have hperm₂ : items₂.Perm given.items := by decide
  have hline₁ : Spells items₁ line₁ := .joined hplus (.rom hrom (.apart hzeros .nil))
  have hline₂ : Spells items₂ line₂ := .joined hseed (.apart hrate (.rom hrom .nil))
  have htooSlow : ofArguments ⟨"-", 700, 701, some 9⟩ = .error (.tooSlow 700 701) :=
    (haccepted _).2.2 (by decide) (by decide)
  -- the accepted settings
  obtain ⟨s, hs⟩ := (haccepted ⟨"g.ch8", 1200, 30, none⟩).1.mpr (by decide)
  obtain ⟨-, -, hle, hlt, hframe⟩ := hruns _ s hs
  have hforty : s.perFrame = 40 := by
    have hle' : s.perFrame * 30 ≤ 1200 := hle
    have hlt' : 1200 < (s.perFrame + 1) * 30 := hlt
    omega
  have hquits : ¬ Session.Quits idle.typed := by decide
  obtain ⟨-, count, hpos, hcount, hmachine, -⟩ :=
    hframe ⟨s, Machine.loaded [0x12, 0x00] (.ofSeed 0) 0, .none, .silent⟩ .warn idle rfl hquits
  rw [hforty] at hcount
  refine ⟨⟨⟨hperm₁, hline₁⟩, hperm₂, hline₂, hquits⟩, ?_, ?_,
    s, hs, hforty, count, hpos, hcount, hmachine⟩
  · exact (hread "-" none (some 701) (some 9) items₁ line₁ hperm₁ hline₁).trans
      (congrArg _ htooSlow)
  · exact (hread "-" none (some 701) (some 9) items₂ line₂ hperm₂ hline₂).trans
      (congrArg _ htooSlow)

end Settings

end Chip8

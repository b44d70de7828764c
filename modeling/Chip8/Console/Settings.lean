import Chip8.Console.Arguments
import Chip8.Console.Path

/-!
# Settings

Arguments that a frame loop can run with: there is a frame rate, and every
frame has at least one instruction.
-/

namespace Chip8

/-- Why arguments are refused. -/
inductive SettingsError where
  | zeroFrameRate
  | tooSlow (ips frameRate : UInt64)
deriving Repr, DecidableEq

def SettingsError.message : SettingsError → String
  | zeroFrameRate => "Frame rate must be greater than zero"
  | tooSlow ips frameRate =>
      s!"Instructions per second ({ips}) must be at least the frame rate ({frameRate})"

structure Settings where
  rom : String
  /-- Instructions per second. -/
  ips : UInt64
  /-- Frames per second. -/
  frameRate : UInt64
  seed? : Option UInt64
  frameRate_pos : 0 < frameRate.toNat
  frameRate_le_ips : frameRate.toNat ≤ ips.toNat
deriving Repr, DecidableEq

namespace Settings

def ofArguments (a : Arguments) : Except SettingsError Settings :=
  if h : a.frameRate.toNat = 0 then .error .zeroFrameRate
  else if h' : a.ips.toNat < a.frameRate.toNat then .error (.tooSlow a.ips a.frameRate)
  else .ok
    { rom := a.rom
      ips := a.ips
      frameRate := a.frameRate
      seed? := a.seed?
      frameRate_pos := Nat.pos_of_ne_zero h
      frameRate_le_ips := Nat.le_of_not_lt h' }

/-- There are settings only for arguments that a frame loop can run with, and they
say the same. -/
theorem ofArguments_eq_ok_iff {a : Arguments} {s : Settings} :
    ofArguments a = .ok s ↔
      s.rom = a.rom ∧ s.ips = a.ips ∧ s.frameRate = a.frameRate ∧ s.seed? = a.seed? := by
  obtain ⟨rom, ips, frameRate, seed?, hpos, hle⟩ := s
  constructor
  · intro h
    unfold ofArguments at h
    split at h
    · cases h
    · split at h
      · cases h
      · cases h
        exact ⟨rfl, rfl, rfl, rfl⟩
  · rintro ⟨rfl, rfl, rfl, rfl⟩
    rw [ofArguments, dif_neg (Nat.ne_of_gt hpos), dif_neg (Nat.not_lt_of_le hle)]

theorem ofArguments_of_zero {a : Arguments} (h : a.frameRate = 0) :
    ofArguments a = .error .zeroFrameRate :=
  dif_pos (UInt64.toNat_inj.mpr h)

theorem ofArguments_of_lt {a : Arguments} (hpos : 0 < a.frameRate) (h : a.ips < a.frameRate) :
    ofArguments a = .error (.tooSlow a.ips a.frameRate) := by
  have hrate : 0 < a.frameRate.toNat := UInt64.lt_iff_toNat_lt.mp hpos
  rw [ofArguments, dif_neg (Nat.ne_of_gt hrate), dif_pos (UInt64.lt_iff_toNat_lt.mp h)]

theorem exists_ofArguments_eq_ok_iff {a : Arguments} :
    (∃ s, ofArguments a = .ok s) ↔ 0 < a.frameRate ∧ a.frameRate ≤ a.ips := by
  simp only [UInt64.lt_iff_toNat_lt, UInt64.le_iff_toNat_le]
  constructor
  · rintro ⟨s, h⟩
    obtain ⟨-, hips, hrate, -⟩ := ofArguments_eq_ok_iff.mp h
    rw [← hips, ← hrate]
    exact ⟨s.frameRate_pos, s.frameRate_le_ips⟩
  · rintro ⟨hpos, hle⟩
    exact ⟨⟨a.rom, a.ips, a.frameRate, a.seed?, hpos, hle⟩,
      ofArguments_eq_ok_iff.mpr ⟨rfl, rfl, rfl, rfl⟩⟩

/-- How many instructions a frame runs. -/
def perFrame (s : Settings) : Nat := s.ips.toNat / s.frameRate.toNat

theorem perFrame_pos (s : Settings) : 0 < s.perFrame :=
  Nat.div_pos s.frameRate_le_ips s.frameRate_pos

theorem perFrame_mul_le (s : Settings) : s.perFrame * s.frameRate.toNat ≤ s.ips.toNat :=
  Nat.div_mul_le_self _ _

theorem lt_perFrame_add_one_mul (s : Settings) :
    s.ips.toNat < (s.perFrame + 1) * s.frameRate.toNat := by
  rw [Nat.mul_comm]
  exact Nat.lt_mul_div_succ _ s.frameRate_pos

/-- The name of the ROM as a title. -/
def romName (s : Settings) : String :=
  match Path.fileName? s.rom.toList with
  | some name => String.ofList (Path.stem name)
  | none => "Unknown ROM"

end Settings

end Chip8

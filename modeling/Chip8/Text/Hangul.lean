/-!
# Hangul

A Korean syllable is written as one character or as its letters: consonants at
the start, vowels, consonants at the end.
-/

namespace Chip8

namespace Hangul

/-- What a character is within a syllable. -/
inductive Part where
  /-- A consonant at the start. -/
  | leading
  | vowel
  /-- A consonant at the end. -/
  | trailing
  /-- A syllable that ends in its vowel. -/
  | openSyllable
  | closedSyllable
deriving Repr, DecidableEq

def syllables : Nat × Nat := (0xAC00, 0xD7A3)

/-- The number of syllables that differ in their end only. The open one comes
first. -/
def endings : Nat := 28

/-- The vowel signs of Kirat Rai, which go together as those of Hangul do. -/
def IsKiratVowel (c : Char) : Prop :=
  c.toNat = 0x16D63 ∨ (0x16D67 ≤ c.toNat ∧ c.toNat ≤ 0x16D6A)

instance : DecidablePred IsKiratVowel := fun c => by
  unfold IsKiratVowel; infer_instance

def part? (c : Char) : Option Part :=
  let n := c.toNat
  if (0x1100 ≤ n ∧ n ≤ 0x115F) ∨ (0xA960 ≤ n ∧ n ≤ 0xA97C) then some .leading
  else if (0x1160 ≤ n ∧ n ≤ 0x11A7) ∨ (0xD7B0 ≤ n ∧ n ≤ 0xD7C6) then some .vowel
  else if (0x11A8 ≤ n ∧ n ≤ 0x11FF) ∨ (0xD7CB ≤ n ∧ n ≤ 0xD7FB) then some .trailing
  else if syllables.1 ≤ n ∧ n ≤ syllables.2 then
    if (n - syllables.1) % endings = 0 then some .openSyllable else some .closedSyllable
  else if IsKiratVowel c then some .vowel
  else none

/-- A part goes on with the syllable that ends in another part. -/
def Part.Continues : Part → Part → Prop
  | .leading, next => next ≠ .trailing
  | .vowel, next | .openSyllable, next => next = .vowel ∨ next = .trailing
  | .trailing, next | .closedSyllable, next => next = .trailing

instance (p q : Part) : Decidable (p.Continues q) := by
  unfold Part.Continues; split <;> infer_instance

/-- The second character belongs to the syllable of the first. -/
def Joins (c d : Char) : Prop :=
  match part? c, part? d with
  | some p, some q => p.Continues q
  | _, _ => False

instance (c d : Char) : Decidable (Joins c d) := by
  unfold Joins; split <;> infer_instance

/-- Vowels and consonants at the end have no cell of their own. -/
def IsSilent (c : Char) : Prop :=
  (part? c = some .vowel ∧ ¬ IsKiratVowel c) ∨ part? c = some .trailing

instance : DecidablePred IsSilent := fun c => by
  unfold IsSilent; infer_instance

end Hangul

end Chip8

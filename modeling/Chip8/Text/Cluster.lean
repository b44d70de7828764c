import Chip8.Text.Emoji
import Chip8.Text.Hangul
import Chip8.Text.Indic
import Chip8.Text.Marks

/-!
# Clusters

What a reader takes for one character is often a sequence of them: a letter with
its accents, a syllable, a flag, a picture of a family. A text is cut into such
clusters from its start. Whether a character belongs to the cluster before it
depends on that cluster alone.
-/

namespace Chip8

/-- The characters of a cluster in their order. -/
abbrev Cluster := List Char

namespace Cluster

/-- A character that adds to the one before it. -/
def Extends (c : Char) : Prop := c ∈ Marks.extending ∨ Emoji.IsModifier c

instance : DecidablePred Extends := fun c => by
  unfold Extends; infer_instance

/-- A mark within a conjunct. The non-joiner ends one. -/
def IsConjunctMark (c : Char) : Prop :=
  (Extends c ∧ c.toNat ≠ 0x200C) ∨ c = Marks.joiner

instance : DecidablePred IsConjunctMark := fun c => by
  unfold IsConjunctMark; infer_instance

/-! Below, `last` is the character that the cluster so far ends in, and `before`
those before it, from the last to the first. -/

/-- A consonant is tied to the one that the cluster ends in. -/
def JoinsConsonant (last : Char) (before : List Char) (c : Char) : Prop :=
  c ∈ Indic.consonants ∧
    ((last :: before).takeWhile (IsConjunctMark ·)).any (· ∈ Indic.linkers) ∧
    Indic.consonants.Begins ((last :: before).dropWhile (IsConjunctMark ·))

instance (last : Char) (before : List Char) (c : Char) :
    Decidable (JoinsConsonant last before c) := by
  unfold JoinsConsonant; infer_instance

/-- A picture is joined to the one that the cluster ends in. -/
def JoinsPicture (last : Char) (before : List Char) (c : Char) : Prop :=
  last = Marks.joiner ∧ c ∈ Emoji.pictographs ∧
    Emoji.pictographs.Begins (before.dropWhile (Extends ·))

instance (last : Char) (before : List Char) (c : Char) :
    Decidable (JoinsPicture last before c) := by
  unfold JoinsPicture; infer_instance

/-- The second letter of a flag. -/
def JoinsFlag (last : Char) (before : List Char) (c : Char) : Prop :=
  Emoji.IsIndicator c ∧
    ((last :: before).takeWhile (Emoji.IsIndicator ·)).length % 2 = 1

instance (last : Char) (before : List Char) (c : Char) :
    Decidable (JoinsFlag last before c) := by
  unfold JoinsFlag; infer_instance

/-- A character belongs to the cluster before it. -/
def Joins (last : Char) (before : List Char) (c : Char) : Prop :=
  if last ∈ Marks.controls ∨ c ∈ Marks.controls then last = '\r' ∧ c = '\n'
  else
    Hangul.Joins last c ∨ Extends c ∨ c = Marks.joiner ∨ c ∈ Marks.spacing
      ∨ last ∈ Marks.leading ∨ JoinsConsonant last before c ∨ JoinsPicture last before c
      ∨ JoinsFlag last before c

instance (last : Char) (before : List Char) (c : Char) : Decidable (Joins last before c) := by
  unfold Joins; infer_instance

/-- Goes on with a cluster that has begun. -/
def splitFrom (last : Char) (before : List Char) : List Char → List Cluster
  | [] => [(last :: before).reverse]
  | c :: rest =>
    if Joins last before c then splitFrom c (last :: before) rest
    else (last :: before).reverse :: splitFrom c [] rest

def split : List Char → List Cluster
  | [] => []
  | c :: rest => splitFrom c [] rest

theorem flatten_splitFrom (last : Char) (before text : List Char) :
    (splitFrom last before text).flatten = (last :: before).reverse ++ text := by
  induction text generalizing last before with
  | nil => simp [splitFrom]
  | cons c rest ih =>
    unfold splitFrom
    split <;> simp [ih]

/-- Nothing of the text is lost. -/
theorem flatten_split (text : List Char) : (split text).flatten = text := by
  cases text with
  | nil => rfl
  | cons c rest => simp [split, flatten_splitFrom]

theorem ne_nil_of_mem_splitFrom {last : Char} {before text : List Char} {g : Cluster}
    (hg : g ∈ splitFrom last before text) : g ≠ [] := by
  induction text generalizing last before with
  | nil =>
    obtain rfl := List.mem_singleton.mp hg
    simp
  | cons c rest ih =>
    unfold splitFrom at hg
    split at hg
    · exact ih hg
    · rcases List.mem_cons.mp hg with rfl | hg
      · simp
      · exact ih hg

/-- A cluster holds at least one character. -/
theorem ne_nil_of_mem_split {text : List Char} {g : Cluster} (hg : g ∈ split text) :
    g ≠ [] := by
  cases text with
  | nil => simp [split] at hg
  | cons c rest => exact ne_nil_of_mem_splitFrom hg

end Cluster

end Chip8

import Chip8.Text.Emoji
import Chip8.Text.Width.Basic

/-!
# Widths of texts

Pictures that are joined take the cells of one, and so do letters that are
written as one. What a character takes thus depends on what follows it. So a
text is measured from its end, and of the part behind only its head matters.
-/

namespace Chip8

/-- The first of the characters behind, as far as it can be joined to one in
front of them. -/
inductive Head where
  | plain
  | picture
  /-- A modifier that waits for its picture. -/
  | modifier
  /-- Letters of flags. -/
  | indicators (count : Nat)
  /-- A joiner and a picture. -/
  | joined
  /-- The frame of a key before a joiner and a picture. -/
  | joinedKeycap
  /-- Letters of flags before a joiner and a picture. -/
  | joinedIndicators (count : Nat)
  /-- Tags and their end before a joiner and a picture. Letters stand behind
  digits. -/
  | joinedTags (letters digits : Nat)
  | alef
  /-- The letter at the end of a ligature, with a joiner before it or not. -/
  | last (ligature : Ligature) (joined : Bool)
  /-- The sign for i, a joiner and the letter ya of the Buginese script. -/
  | signYa
  /-- The joiner of Tifinagh and a consonant. -/
  | joinedConsonant
  /-- The vowel sign for e of the Kirat Rai script. -/
  | vowelE
  /-- The vowel sign for ai, which is twice that for e. -/
  | vowelAi
deriving Repr, DecidableEq

namespace Head

def ofChar (c : Char) : Head :=
  if Emoji.IsModifier c then .modifier
  else if Emoji.IsIndicator c then .indicators 1
  else if c ∈ Emoji.presented then .picture
  else if c ∈ Ligature.alefs then .alef
  else if c.toNat = 0x16D67 then .vowelE
  else if c.toNat = 0x16D68 then .vowelAi
  else
    match Ligature.ofLast? c with
    | some l => .last l false
    | none => .plain

/-- Letters that can be the end of a ligature, to which a selector means
nothing. -/
def IsLetter : Head → Prop
  | alef | last .. | signYa | joinedConsonant => True
  | _ => False

instance : DecidablePred IsLetter := fun h => by
  unfold IsLetter; split <;> infer_instance

/-- A picture to which another one can be joined in front. -/
def IsJoined : Head → Prop
  | joined | joinedKeycap => True
  | _ => False

instance : DecidablePred IsJoined := fun h => by
  unfold IsJoined; split <;> infer_instance

/-- A character before the last letter of a ligature: the number of cells of
both, of which the letter has one, and what they open with. -/
def meetLast (l : Ligature) (joined : Bool) (n : Nat) (c : Char) : Option (Nat × Head) :=
  if c = Marks.joiner then some (n, .last l true)
  else if c ∈ Ligature.transparent then some (n, .last l joined)
  else
    match l, joined with
    | .hebrew, true => if c.toNat = 0x05D0 then some (n, .plain) else none
    | .buginese, true => if c.toNat = 0x1A17 then some (n, .signYa) else none
    | .tifinagh, _ =>
      if c = Ligature.tifinaghJoiner then some (n + 1, .joinedConsonant)
      else if joined ∧ c ∈ Ligature.tifinaghConsonants then some (n, .plain)
      else none
    | .lisu, _ => if c ∈ Ligature.lisuFirst then some (n, .plain) else none
    | .oldTurkic, true => if c.toNat = 0x10C32 then some (n, .plain) else none
    | .khmer, _ => if c = Ligature.coeng then some (n - 1, .plain) else none
    | _, _ => none

/-- The letters of a flag before a joiner and a picture. The last two of an even
number are a flag that is joined. -/
def meetJoinedIndicators (count n : Nat) (c : Char) : Option (Nat × Head) :=
  if Emoji.IsIndicator c then
    some (if count % 2 = 1 then n - 1 else n + 3, .joinedIndicators (count + 1))
  else if c = Marks.joiner ∧ 2 ≤ count then some (n, .joined)
  else none

/-- A region has three to six letters, or three digits before a few letters. -/
def meetJoinedTags (letters digits n : Nat) (c : Char) : Option (Nat × Head) :=
  if Emoji.IsTagLetter c ∧ digits = 0 ∧ letters < 6 then
    some (n, .joinedTags (letters + 1) 0)
  else if Emoji.IsTagDigit c ∧ digits < 3 ∧ (digits = 0 → letters ≤ 4) then
    some (n, .joinedTags letters (digits + 1))
  else if c = Emoji.blackFlag ∧ (digits = 3 ∨ (digits = 0 ∧ 3 ≤ letters)) then
    some (n, .picture)
  else none

/-- A character before a joiner and a picture. -/
def meetJoined (n : Nat) (c : Char) : Option (Nat × Head) :=
  if c = Emoji.keycap then some (n, .joinedKeycap)
  else if Emoji.IsIndicator c then some (n + 1, .joinedIndicators 1)
  else if Emoji.IsModifier c then some (n, .modifier)
  else if c = Emoji.cancelTag then some (n, .joinedTags 0 0)
  else if c ∈ Emoji.presented then some (n, .picture)
  else none

/-- A character before text of `n` cells, if the two are joined: the cells of
both and what they open with. -/
def meet (h : Head) (n : Nat) (c : Char) : Option (Nat × Head) :=
  match h with
  | plain | joinedKeycap => none
  | picture => if c = Marks.joiner then some (n, .joined) else none
  | modifier =>
    if c ∈ Emoji.modifierBases then some (n, .picture)
    else if c = Marks.joiner then some (n, .joined)
    else none
  | indicators count =>
    if Emoji.IsIndicator c then some (n + 1, .indicators (count + 1))
    else if c = Marks.joiner ∧ 2 ≤ count then some (n, .joined)
    else none
  | joined => meetJoined n c
  | joinedIndicators count => meetJoinedIndicators count n c
  | joinedTags letters digits => meetJoinedTags letters digits n c
  | alef =>
    if c ∈ Ligature.lams then some (n, .plain)
    else if Width.IsTransparent c then some (n, .alef)
    else none
  | last l isJoined => meetLast l isJoined n c
  | signYa =>
    if c = Marks.joiner ∨ c ∈ Ligature.transparent then some (n, .signYa)
    else if c.toNat = 0x1A15 then some (n, .plain)
    else none
  | joinedConsonant =>
    if c = Marks.joiner ∨ c ∈ Ligature.transparent then some (n, .joinedConsonant)
    else if c ∈ Ligature.tifinaghConsonants then some (n - 1, .plain)
    else none
  | vowelE =>
    if c.toNat = 0x16D63 ∨ c.toNat = 0x16D69 then some (n, .plain)
    else if c.toNat = 0x16D67 then some (n, .vowelAi)
    else if c.toNat = 0x16D68 then some (n + 1, .vowelE)
    else none
  | vowelAi => if c.toNat = 0x16D63 then some (n, .plain) else none

end Head

namespace Width

/-- The part of a text that has been measured: its cells, its head, and the
style that a selector before the head asks for. -/
structure Measure where
  cells : Nat
  head : Head
  style? : Option Emoji.Style
deriving Repr, DecidableEq

namespace Measure

def empty : Measure := ⟨0, .plain, none⟩

/-- What is left of the head when the style does not go with the character in
front of it. -/
def unstyled (m : Measure) : Head :=
  if m.style? = some .picture ∧ ¬ m.head.IsLetter then .plain else m.head

/-- A selector before the head. Only letters, and what waits for a picture in
front of it, are still there behind it. -/
def select (m : Measure) (style : Emoji.Style) : Measure :=
  let head := m.unstyled
  if head.IsLetter ∨ (style = .picture ∧ head.IsJoined) then ⟨m.cells, head, some style⟩
  else ⟨m.cells, .plain, some style⟩

/-- Measures one more character in front. A picture chosen by a selector takes
two cells unless it is joined to one behind it. -/
def push (c : Char) (m : Measure) : Measure :=
  if m.style? = some .picture ∧ c ∈ Emoji.selectable then
    ⟨if m.head.IsJoined then m.cells else m.cells + 2, .picture, none⟩
  else if c.toNat ≤ 0xA0 then ⟨m.cells + 1, .plain, none⟩
  else
    match Emoji.style? c with
    | some style => m.select style
    | none =>
      if m.style? = some .text ∧ Emoji.Narrows c then ⟨m.cells + 1, .plain, none⟩
      else
        match m.unstyled.meet m.cells c with
        | some (n, head) => ⟨n, head, none⟩
        | none => ⟨m.cells + ofChar c, .ofChar c, none⟩

end Measure

/-- The number of cells that a text takes in a line. -/
def ofText (text : List Char) : Nat := (text.foldr Measure.push .empty).cells

end Width

end Chip8

import Chip8.Console.Settings
import Chip8.Console.Title
import Chip8.Machine.Cycle

/-!
# The screen

Three boxes below each other: the display under the name of the ROM, the state
of the processor, and the keys. What does not fit into a box is cut off on the
right.

The display's box is as wide as the display and stands in the middle of a wider
terminal; on a narrower one it takes what there is.
-/

namespace Chip8

namespace Screen

/-! ## Boxes -/

/-- A box `w` cells wide with a title in its upper border. -/
def box (w : Nat) (title : List Char) (lines : List Row) : List Row :=
  Row.edged w '┌' '─' '┐' (Title.cells (w - 2) '─' title)
    :: lines.map (Row.edged w '│' ' ' '│')
    ++ [Row.edged w '└' '─' '┘' []]

/-- A line in the middle of `w` cells, or as much of it as fits. -/
def centred (w : Nat) (line : Row) : Row :=
  let shown := line.take w
  List.replicate (w / 2 - shown.length / 2) Cell.blank ++ shown

theorem length_of_mem_box {w : Nat} {title : List Char} {lines : List Row} {r : Row}
    (h : r ∈ box w title lines) : r.length = w := by
  simp only [box, List.cons_append, List.mem_cons, List.mem_append, List.mem_map,
    List.not_mem_nil, or_false] at h
  rcases h with rfl | ⟨l, -, rfl⟩ | rfl <;> exact Row.length_edged ..

@[simp] theorem length_box (w : Nat) (title : List Char) (lines : List Row) :
    (box w title lines).length = lines.length + 2 := by
  simp [box]

/-! ## The display -/

def litCell : Cell := ['█']

/-- The width of the display with its border. -/
def displayBoxWidth : Nat := Display.width + 2

def displayLines (d : Display) : List Row :=
  d.toLists.map fun row => row.map fun lit => if lit then litCell else Cell.blank

/-- The empty cells to the left of the display on a terminal `w` cells wide. -/
def displayOffset (w : Nat) : Nat :=
  if displayBoxWidth < w then (w - displayBoxWidth + 1) / 2 else 0

def displayBox (w : Nat) (title : List Char) (d : Display) : List Row :=
  (box (min w displayBoxWidth) title (displayLines d)).map fun row =>
    Row.fit w ' ' (List.replicate (displayOffset w) Cell.blank ++ row)

/-! ## The processor and the keys -/

/-- A byte in decimal, three cells wide. -/
def counter (b : UInt8) : String :=
  String.ofList ((toString b.toNat).toList.leftpad 3 ' ')

/-- The instruction that comes next, or why there is none. -/
def nextText (m : Machine) : String :=
  match m.peek with
  | .ok i => i.text
  | .error fault => fault.message

def statusLine (m : Machine) : String :=
  "PC " ++ Hex.address m.pc ++ "  I " ++ Hex.address m.index
    ++ "  DT " ++ counter m.timers.delay ++ "  ST " ++ counter m.timers.sound
    ++ "  next: " ++ nextText m

def processorBox (w : Nat) (m : Machine) : List Row :=
  box w "CPU".toList [Row.ofChars (statusLine m).toList]

def keyLines : List String :=
  ["Key Mapping:",
    "1 2 3 4    →    1 2 3 C",
    "Q W E R    →    4 5 6 D",
    "A S D F    →    7 8 9 E",
    "Z X C V    →    A 0 B F"]

def keyBox (w : Nat) : List Row :=
  box w "Keypad (Esc quits)".toList (keyLines.map fun line =>
    centred (w - 2) (Row.ofChars line.toList))

/-! ## The whole screen -/

/-- The screen of a terminal with `h` rows of `w` cells. -/
def draw (title : String) (m : Machine) (w h : Nat) : List Row :=
  let rows := displayBox w title.toList m.display ++ processorBox w m ++ keyBox w
  (rows.take h).rightpad h (List.replicate w Cell.blank)

theorem length_draw (title : String) (m : Machine) (w h : Nat) :
    (draw title m w h).length = h := by
  simp only [draw, List.length_rightpad, List.length_take]
  omega

/-- Every row fills the terminal. -/
theorem length_of_mem_draw {title : String} {m : Machine} {w h : Nat} {r : Row}
    (hr : r ∈ draw title m w h) : r.length = w := by
  unfold draw at hr
  simp only [List.rightpad, List.mem_append, List.mem_replicate] at hr
  rcases hr with hr | ⟨-, rfl⟩
  · have := List.mem_of_mem_take hr
    simp only [List.mem_append, displayBox, List.mem_map] at this
    rcases this with (⟨r, -, rfl⟩ | hb) | hb
    · exact Row.length_fit ..
    · exact length_of_mem_box hb
    · exact length_of_mem_box hb
  · simp

end Screen

end Chip8

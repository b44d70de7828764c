/-!
# Rows of a screen

A row is a list of cells, exactly as many as the terminal is wide. A cell shows
one character with its marks. The cell to the right of a wide character is
covered by it and shows nothing of its own.
-/

namespace Chip8

/-- The characters shown in one cell, none where it is covered. -/
abbrev Cell := List Char

abbrev Row := List Cell

namespace Cell

def blank : Cell := [' ']

end Cell

namespace Row

/-- Text in which every character takes one cell. -/
def ofChars (text : List Char) : Row := text.map fun c => [c]

@[simp] theorem length_ofChars (text : List Char) : (ofChars text).length = text.length := by
  simp [ofChars]

/-- What a row reads as. A covered cell reads as a blank. -/
def text (r : Row) : String :=
  String.ofList (r.flatMap fun cell => if cell = [] then Cell.blank else cell)

/-- Cells at the left of a row of `w`, the rest filled up. -/
def fit (w : Nat) (fill : Char) (cells : Row) : Row := (cells.take w).rightpad w [fill]

@[simp] theorem length_fit (w : Nat) (fill : Char) (cells : Row) :
    (fit w fill cells).length = w := by
  simp only [fit, List.length_rightpad, List.length_take]
  omega

theorem fit_eq (w : Nat) (fill : Char) (cells : Row) :
    fit w fill cells = cells.take w ++ List.replicate (w - cells.length) [fill] := by
  rw [fit, List.rightpad, List.length_take]
  congr 2
  omega

/-- Cells between two edges. The left edge stays where there is room for one cell
only. -/
def edged (w : Nat) (left fill right : Char) (cells : Row) : Row :=
  ([left] :: fit (w - 2) fill cells ++ [[right]]).take w

theorem length_edged (w : Nat) (left fill right : Char) (cells : Row) :
    (edged w left fill right cells).length = w := by
  simp only [edged, List.length_take, List.length_cons, List.length_append, length_fit,
    List.length_nil]
  omega

/-- Both edges are there as soon as there is room for them. -/
theorem edged_eq {w : Nat} (hw : 2 ≤ w) (left fill right : Char) (cells : Row) :
    edged w left fill right cells = [left] :: fit (w - 2) fill cells ++ [[right]] := by
  refine List.take_of_length_le ?_
  simp only [List.length_append, List.length_cons, length_fit, List.length_nil]
  omega

end Row

end Chip8

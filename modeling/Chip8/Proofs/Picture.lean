import Chip8.Console.Screen
import Chip8.Proofs.Views

/-!
# The display on the screen

The display is drawn as a text with a line for each row (`displayText`), and
the lines stand in a box. What a row of that box consists of is said once
(`getElem?_displayBox`): blanks to the left, an edge, the pixels as far as
there is room, an edge, blanks to the right. Which cell shows which pixel is
counted off from there, for all widths of the terminal at once
(`Screen.shows_display`).
-/

namespace Chip8

namespace Screen

/-- The cell in a row and a column of the screen. -/
def cell? (picture : List Row) (row column : Nat) : Option Cell :=
  picture[row]?.bind fun r => r[column]?

/-- What is written into the box of the display. -/
def displayText (d : Display) : String := d.textWith fun lit => if lit then '█' else ' '

/-- How a pixel is shown. -/
def pixelCell (d : Display) (x y : Nat) : Cell := if d.pixel x y then ['█'] else [' ']

theorem pixelCell_eq_iff {d d' : Display} {x y : Nat} :
    pixelCell d x y = pixelCell d' x y ↔ d.pixel x y = d'.pixel x y := by
  unfold pixelCell
  cases d.pixel x y <;> cases d'.pixel x y <;> decide

/-! ## The lines of the display -/

theorem displayLines_eq_lines (d : Display) :
    displayLines d = (Title.lines (displayText d).toList).map Row.ofChars := by
  rw [displayText, Display.lines_textWith (by decide), List.map_map]
  refine List.map_congr_left fun row _ => ?_
  rw [Function.comp_apply, Row.ofChars, List.map_map]
  refine List.map_congr_left fun lit _ => ?_
  cases lit <;> rfl

theorem displayLines_eq (d : Display) :
    displayLines d
      = (List.range 32).map fun y => (List.range 64).map fun x => pixelCell d x y := by
  rw [displayLines, Display.toLists_eq, List.map_map]
  refine List.map_congr_left fun y _ => ?_
  rw [Function.comp_apply, List.map_map]
  rfl

/-! ## The box of the display -/

theorem getElem?_box {w y : Nat} {lines : List Row} {line : Row} (title : List Char)
    (h : lines[y]? = some line) :
    (box w title lines)[1 + y]? = some (Row.edged w '│' ' ' '│' line) := by
  have hy : y < (lines.map (Row.edged w '│' ' ' '│')).length := by
    rw [List.length_map]
    exact (List.getElem?_eq_some_iff.mp h).1
  rw [box, Nat.add_comm, List.cons_append, List.getElem?_cons_succ, List.getElem?_append_left hy,
    List.getElem?_map, h, Option.map_some]

/-- The pixels that there is room for, between the edges. -/
theorem edged_pixels {w : Nat} (hw : 3 ≤ w) (d : Display) (y : Nat) :
    Row.edged (min w displayBoxWidth) '│' ' ' '│' ((List.range 64).map fun x => pixelCell d x y)
      = ['│'] :: ((List.range (min 64 (w - 2))).map fun x => pixelCell d x y) ++ [['│']] := by
  have hwidth : displayBoxWidth = 66 := rfl
  have hroom : min w displayBoxWidth - 2 = min 64 (w - 2) := by omega
  have hfull : min 64 (w - 2) - 64 = 0 := by omega
  rw [Row.edged_eq (by omega), hroom, Row.fit_eq, ← List.map_take, List.take_range,
    List.length_map, List.length_range, hfull, List.replicate_zero, List.append_nil,
    Nat.min_eq_left (Nat.min_le_left ..)]

/-- What stands in a row of the box, from the left to the right. -/
theorem getElem?_displayBox {w y : Nat} (hw : 3 ≤ w) (hy : y < 32) (title : List Char)
    (d : Display) :
    (displayBox w title d)[1 + y]?
      = some (List.replicate (displayOffset w) Cell.blank
          ++ (['│'] :: ((List.range (min 64 (w - 2))).map fun x => pixelCell d x y) ++ [['│']])
          ++ List.replicate (w - (displayOffset w + min w 66)) Cell.blank) := by
  have hline : (displayLines d)[y]? = some ((List.range 64).map fun x => pixelCell d x y) := by
    rw [displayLines_eq, List.getElem?_map, List.getElem?_range hy, Option.map_some]
  have hoffset : displayOffset w + min w 66 ≤ w := by
    unfold displayOffset
    have hwidth : displayBoxWidth = 66 := rfl
    split <;> omega
  rw [displayBox, List.getElem?_map, getElem?_box title hline, Option.map_some, edged_pixels hw,
    Row.fit_eq]
  have hlength : (List.replicate (displayOffset w) Cell.blank
      ++ (['│'] :: ((List.range (min 64 (w - 2))).map fun x => pixelCell d x y)
        ++ [['│']])).length = displayOffset w + min w 66 := by
    simp only [List.length_append, List.length_replicate, List.length_cons, List.length_map,
      List.length_range, List.length_nil]
    omega
  rw [hlength, List.take_of_length_le (hlength.trans_le hoffset)]
  rfl

/-- Nothing is above the box of the display, and its rows fit on the screen. -/
theorem getElem?_draw {w h y : Nat} (hh : 44 ≤ h) (hy : y < 32) (title : String) (m : Machine) :
    (draw title m w h)[1 + y]? = (displayBox w title.toList m.display)[1 + y]? := by
  have hlength : (displayBox w title.toList m.display).length = 34 := by
    rw [displayBox, List.length_map, length_box, displayLines_eq, List.length_map,
      List.length_range]
  have hall : 34 ≤ (displayBox w title.toList m.display ++ processorBox w m ++ keyBox w).length := by
    rw [List.length_append, List.length_append]
    omega
  rw [draw, List.rightpad, List.getElem?_append_left (by rw [List.length_take]; omega),
    List.getElem?_take_of_lt (by omega), List.append_assoc,
    List.getElem?_append_left (by omega)]

/-! ## Cells -/

theorem cell?_draw {w h x y : Nat} (hw : 3 ≤ w) (hh : 44 ≤ h) (hx : x < 64) (hx' : x < w - 2)
    (hy : y < 32) (title : String) (m : Machine) :
    cell? (draw title m w h) (1 + y) (displayOffset w + 1 + x)
      = some (pixelCell m.display x y) := by
  have hin : x < min 64 (w - 2) := Nat.lt_min.mpr ⟨hx, hx'⟩
  have hcolumn : displayOffset w + 1 + x - displayOffset w = x + 1 := by omega
  rw [cell?, getElem?_draw hh hy, getElem?_displayBox hw hy, Option.bind_some, List.append_assoc,
    List.getElem?_append_right (by rw [List.length_replicate]; omega), List.length_replicate,
    hcolumn, List.cons_append, List.cons_append, List.getElem?_cons_succ, List.append_assoc,
    List.getElem?_append_left (by rw [List.length_map, List.length_range]; exact hin),
    List.getElem?_map, List.getElem?_range hin, Option.map_some]

/-- Two screens of one size show the same in a cell that shows a pixel of
both exactly if that pixel is the same on both displays. -/
theorem cell?_draw_eq_iff {w h x y : Nat} (hw : 3 ≤ w) (hh : 44 ≤ h) (hx : x < 64)
    (hx' : x < w - 2) (hy : y < 32) (title title' : String) (m m' : Machine) :
    cell? (draw title m w h) (1 + y) (displayOffset w + 1 + x)
        = cell? (draw title' m' w h) (1 + y) (displayOffset w + 1 + x)
      ↔ m.display.pixel x y = m'.display.pixel x y := by
  rw [cell?_draw hw hh hx hx' hy, cell?_draw hw hh hx hx' hy, Option.some.injEq, pixelCell_eq_iff]

/-- **The screen shows the display as it is.** On a terminal of at least 44
rows, whatever the title and the rest of the machine, the box of the display
holds the lines of its text. If the terminal is at least 66 cells wide, every
pixel has its cell: a full block if it is lit and a blank if not, row by row
below the upper edge and column by column right of the left one, which stands
in the middle of what is left over. So two machines show the same there
exactly if their displays are equal. On a narrower terminal the left edge
stands in the first column, and a row is made of its edges and those
pixels that there is room for, with nothing of the others. -/
theorem shows_display (title : String) (m : Machine) {w h : Nat} (hw : 3 ≤ w) (hh : 44 ≤ h) :
    let picture := draw title m w h
    let shown := fun x y => if m.display.pixel x y then ['█'] else [' ']
    displayLines m.display = (Title.lines (displayText m.display).toList).map Row.ofChars
    ∧ (66 ≤ w →
        let left := if w = 66 then 0 else (w - 66 + 1) / 2
        (∀ x y, x < 64 → y < 32 → cell? picture (1 + y) (left + 1 + x) = some (shown x y))
        ∧ ∀ title' m',
          (∀ x y, x < 64 → y < 32 → cell? picture (1 + y) (left + 1 + x)
              = cell? (draw title' m' w h) (1 + y) (left + 1 + x))
            ↔ m.display = m'.display)
    ∧ (w < 66 →
        (∀ x y, x < w - 2 → y < 32 → cell? picture (1 + y) (1 + x) = some (shown x y))
        ∧ (∀ y < 32, picture[1 + y]?
            = some (['│'] :: ((List.range (w - 2)).map fun x => shown x y) ++ [['│']]))
        ∧ ∀ title' m',
          (∀ x y, x < w - 2 → y < 32 → cell? picture (1 + y) (1 + x)
              = cell? (draw title' m' w h) (1 + y) (1 + x))
            ↔ ∀ x y, x < w - 2 → y < 32 → m.display.pixel x y = m'.display.pixel x y) := by
  intro picture shown
  have hwidth : displayBoxWidth = 66 := rfl
  refine ⟨displayLines_eq_lines m.display, fun hwide => ?_, fun hnarrow => ?_⟩
  · intro left
    have hleft : left = displayOffset w := by
      simp only [left, displayOffset]
      split <;> split <;> omega
    rw [hleft]
    refine ⟨fun x y hx hy => cell?_draw hw hh hx (by omega) hy title m, fun title' m' => ?_⟩
    constructor
    · intro hsame
      refine Display.ext_pixel fun x y hx hy => ?_
      exact (cell?_draw_eq_iff hw hh hx (by omega) hy title title' m m').mp (hsame x y hx hy)
    · intro hd x y hx hy
      exact (cell?_draw_eq_iff hw hh hx (by omega) hy title title' m m').mpr (by rw [hd])
  · have hoffset : displayOffset w = 0 := if_neg (by omega)
    have hplace : ∀ x, 1 + x = displayOffset w + 1 + x := by
      intro x
      omega
    refine ⟨?_, ?_, fun title' m' => ?_⟩
    · intro x y hx hy
      rw [hplace x]
      exact cell?_draw hw hh (by omega) hx hy title m
    · intro y hy
      have hroom : min 64 (w - 2) = w - 2 := by omega
      have hright : w - (0 + min w 66) = 0 := by omega
      rw [getElem?_draw hh hy, getElem?_displayBox hw hy, hoffset, hroom, hright,
        List.replicate_zero, List.nil_append, List.append_nil]
      rfl
    · refine forall₄_congr fun x y hx hy => ?_
      rw [hplace x]
      exact cell?_draw_eq_iff hw hh (by omega) hx hy title title' m m'

/-- The lower right pixel on a terminal where an odd number of cells is left
over, and the last one that there is room for on a narrow terminal. -/
theorem shows_display_corners :
    let d := (Display.blank.draw 63 31 [0x80]).draw 7 0 [0xC0]
    let m : Machine := { Machine.initial (.ofSeed 0) 0 with display := d }
    let n := Machine.initial (.ofSeed 0) 0
    let left := if 69 = 66 then 0 else (69 - 66 + 1) / 2
    (3 ≤ 69 ∧ 3 ≤ 10 ∧ 44 ≤ 44 ∧ 66 ≤ 69 ∧ 10 < 66 ∧ 63 < 64 ∧ 7 < 10 - 2 ∧ 0 < 32 ∧ 31 < 32)
    ∧ cell? (draw "maze" m 69 44) (1 + 31) (left + 1 + 63) = some ['█']
    ∧ (¬ ∀ x y, x < 64 → y < 32 → cell? (draw "maze" m 69 44) (1 + y) (left + 1 + x)
        = cell? (draw "" n 69 44) (1 + y) (left + 1 + x))
    ∧ cell? (draw "maze" m 10 44) (1 + 0) (1 + 7) = some ['█']
    ∧ (draw "maze" m 10 44)[1 + 31]?
      = some (['│'] :: ((List.range (10 - 2)).map fun _ => [' ']) ++ [['│']]) := by
  intro d m n left
  have h : 3 ≤ 69 ∧ 3 ≤ 10 ∧ 44 ≤ 44 ∧ 66 ≤ 69 ∧ 10 < 66 ∧ 63 < 64 ∧ 7 < 10 - 2 ∧ 0 < 32
      ∧ 31 < 32 := by decide
  have ⟨hw, hw', hh, hwide, hnarrow, hx, hx', hy, hy'⟩ := h
  obtain ⟨-, hcentred, -⟩ := shows_display "maze" m hw hh
  obtain ⟨hcell, hsame⟩ := hcentred hwide
  obtain ⟨-, -, hcut⟩ := shows_display "maze" m hw' hh
  obtain ⟨hcell', hrow, -⟩ := hcut hnarrow
  refine ⟨h, ?_, ?_, ?_, ?_⟩
  · rw [hcell 63 31 hx hy']
    exact congrArg some (if_pos (by decide))
  · rw [hsame "" n]
    intro hd
    have hpixel : d.pixel 63 31 = n.display.pixel 63 31 := congrArg (Display.pixel · 63 31) hd
    revert hpixel
    decide
  · rw [hcell' 7 0 hx' hy]
    exact congrArg some (if_pos (by decide))
  · rw [hrow 31 hy']
    decide

end Screen

end Chip8

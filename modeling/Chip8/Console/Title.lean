import Chip8.Console.Row
import Chip8.Text.Cluster
import Chip8.Text.Width.Measure

/-!
# Titles

How a title lies in the cells of a border. Its lines follow each other without a
gap. A title takes as many cells of the border as its lines are wide, or those
that there are, and is written into them cluster by cluster. The first cluster
that does not fit ends its line.

Where the clusters of a line are wider than the line, since letters in two of
them are written as one, the next line is written over the end of it.
-/

namespace Chip8

namespace Title

/-- Goes on with a line that has begun, its last character first. A carriage
return at the end of a line belongs to the line feed. -/
def linesFrom (line : List Char) : List Char → List (List Char)
  | [] => if line = [] then [] else [line.reverse]
  | c :: rest =>
    if c = '\n' then
      (if line.head? = some '\r' then line.tail else line).reverse :: linesFrom [] rest
    else linesFrom (c :: line) rest

/-- The lines of a text. A line feed at its end begins no line. -/
def lines (text : List Char) : List (List Char) := linesFrom [] text

/-- The cells that lines take after each other. -/
def extent (lines : List (List Char)) : Nat :=
  lines.foldr (fun line n => Width.ofText line + n) 0

/-- Writes a cluster of `w` cells at column `x` into a row. A cluster without a
cell of its own is added to what stands before it, and so is any that follows
such a cluster in the first cell of a line. -/
def put (row : Row) (start x : Nat) (fresh : Bool) (g : Cluster) (w : Nat) : Row :=
  let written :=
    if fresh then row.set x g
    else if x = start then row.modify x (· ++ g)
    else if w = 0 then row.modify (x - 1) (· ++ g)
    else row.set x g
  written.mapIdx fun i cell => if x < i ∧ i < x + w then Cell.blank else cell

/-- Writes the clusters of a line that starts at column `start`, from column `x`
on. -/
def write (start x : Nat) (fresh : Bool) (row : Row) : List Cluster → Row
  | [] => row
  | g :: rest =>
    let w := Width.ofText g
    if row.length < x + w then row
    else write start (x + w) false (put row start x fresh g w) rest

/-- Writes lines after each other from column `x` on. A line without any width is
left out. -/
def writeLines (x : Nat) (row : Row) : List (List Char) → Row
  | [] => row
  | line :: rest =>
    let w := Width.ofText line
    let row := if w = 0 ∨ row.length ≤ x then row else write x x true row (Cluster.split line)
    writeLines (x + w) row rest

/-- What stands to the right of a wide character is covered. -/
def cover (row : Row) : Row :=
  List.zipWith (fun left cell => if 2 ≤ Width.ofText left then [] else cell) ([] :: row) row

/-- The cells that a title takes of a border with room for `room` of them. -/
def cells (room : Nat) (border : Char) (title : List Char) : Row :=
  let lines := lines title
  cover (writeLines 0 (List.replicate (min (extent lines) room) [border]) lines)

theorem linesFrom_append (line : List Char) {l : List Char} (h : '\n' ∉ l) (rest : List Char) :
    linesFrom line (l ++ rest) = linesFrom (l.reverse ++ line) rest := by
  induction l generalizing line with
  | nil => rfl
  | cons c l ih =>
    have hc : c ≠ '\n' := fun hc => h (hc ▸ List.mem_cons_self ..)
    rw [List.cons_append, linesFrom, if_neg hc, ih _ fun hl => h (List.mem_cons_of_mem c hl)]
    simp

/-- Lines that are each closed by a line feed are found again. -/
theorem lines_flatMap {ls : List (List Char)} (h : ∀ l ∈ ls, '\n' ∉ l ∧ '\r' ∉ l) :
    lines (ls.flatMap fun l => l ++ ['\n']) = ls := by
  induction ls with
  | nil => rfl
  | cons l ls ih =>
    obtain ⟨hfeed, hreturn⟩ := h l (List.mem_cons_self ..)
    have hhead : (l.reverse ++ []).head? ≠ some '\r' := fun hr =>
      hreturn (by simpa using List.mem_of_head? hr)
    have hrest := ih fun l' hl' => h l' (List.mem_cons_of_mem l hl')
    rw [List.flatMap_cons, List.append_assoc, lines, linesFrom_append [] hfeed, List.cons_append,
      List.nil_append, linesFrom, if_pos rfl, if_neg hhead]
    simpa [lines] using hrest

@[simp] theorem length_put (row : Row) (start x : Nat) (fresh : Bool) (g : Cluster) (w : Nat) :
    (put row start x fresh g w).length = row.length := by
  unfold put
  rw [List.length_mapIdx]
  split
  · exact List.length_set
  · split
    · exact List.length_modify ..
    · split
      · exact List.length_modify ..
      · exact List.length_set

@[simp] theorem length_write (start x : Nat) (fresh : Bool) (row : Row) (gs : List Cluster) :
    (write start x fresh row gs).length = row.length := by
  induction gs generalizing x fresh row with
  | nil => rfl
  | cons g rest ih =>
    simp only [write]
    split
    · rfl
    · rw [ih, length_put]

@[simp] theorem length_writeLines (x : Nat) (row : Row) (lines : List (List Char)) :
    (writeLines x row lines).length = row.length := by
  induction lines generalizing x row with
  | nil => rfl
  | cons line rest ih =>
    simp only [writeLines]
    rw [ih]
    split
    · rfl
    · exact length_write ..

@[simp] theorem length_cover (row : Row) : (cover row).length = row.length := by
  simp [cover]

/-- A title takes the cells of its lines as far as there is room. -/
@[simp] theorem length_cells (room : Nat) (border : Char) (title : List Char) :
    (cells room border title).length = min (extent (lines title)) room := by
  simp [cells]

end Title

end Chip8

/-!
# Paths

A path is a list of names separated by slashes. Empty names and the name `.`
say nothing about where a path leads; the name `..` leads one directory up.
-/

namespace Chip8

namespace Path

abbrev Name := List Char

/-- The names between the slashes, empty ones included. -/
def split : List Char → List Name
  | [] => [[]]
  | c :: rest =>
    if c = '/' then [] :: split rest
    else
      match split rest with
      | [] => [[c]]
      | name :: names => (c :: name) :: names

def here : Name := ['.']

def up : Name := ['.', '.']

/-- The names that say where the path leads. -/
def names (path : List Char) : List Name :=
  (split path).filter fun name => name ≠ [] ∧ name ≠ here

/-- The last name, unless the path leads to a directory that it does not name. -/
def fileName? (path : List Char) : Option Name :=
  match (names path).getLast? with
  | some name => if name = up then none else some name
  | none => none

/-- The name up to its last dot. A name whose only dot is its first character
has no ending to cut off, nor has a name without a dot. -/
def stem (name : Name) : Name :=
  match name.reverse.dropWhile (· ≠ '.') with
  | '.' :: before => if before = [] then name else before.reverse
  | _ => name

end Path

end Chip8

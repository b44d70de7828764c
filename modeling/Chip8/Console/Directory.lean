import Chip8.Console.Path

/-!
# Files in a directory

What reading a path yields in a directory whose files are known. A path is
walked name by name: an intermediate name has to be a directory, and a path
that ends at a directory cannot be read. Of what lies outside the directory
nothing is known but that directories lead there, so no name is found in it.
-/

namespace Chip8

/-- Why a file cannot be read. -/
inductive ReadError where
  | notFound
  | notDirectory
  | isDirectory
  | nameTooLong
  /-- No path of the system can hold the character with code 0. -/
  | nulInPath
  /-- Any other failure, in the words of the system. -/
  | other (text : String)
deriving Repr, DecidableEq

def ReadError.text : ReadError → String
  | notFound => "No such file or directory (os error 2)"
  | notDirectory => "Not a directory (os error 20)"
  | isDirectory => "Is a directory (os error 21)"
  | nameTooLong => "File name too long (os error 36)"
  | nulInPath => "file name contained an unexpected NUL byte"
  | other text => text

/-- The files below a directory, each with the names that lead to it. -/
structure Directory where
  files : List (List Path.Name × List UInt8)
deriving Repr, DecidableEq

namespace Directory

/-- Where a walk has come to. -/
inductive Place where
  /-- The directory that these names lead to. -/
  | inside (names : List Path.Name)
  | file (content : List UInt8)
  | outside
deriving Repr, DecidableEq

/-- Files given by their paths. -/
def ofFiles (files : List (String × List UInt8)) : Directory :=
  ⟨files.map fun (path, content) => (Path.names path.toList, content)⟩

def maxNameBytes : Nat := 255

def maxPathBytes : Nat := 4095

def byteCount (s : List Char) : Nat := (String.ofList s).utf8ByteSize

/-- Looks a name up in the directory that `names` leads to. -/
def lookup (d : Directory) (names : List Path.Name) (name : Path.Name) :
    Except ReadError Place :=
  if maxNameBytes < byteCount name then .error .nameTooLong
  else
    match d.files.lookup (names ++ [name]) with
    | some content => .ok (.file content)
    | none =>
      if d.files.any fun (path, _) => (names ++ [name]).isPrefixOf path then
        .ok (.inside (names ++ [name]))
      else .error .notFound

/-- Goes on by one name. An empty name stays where it is. -/
def step (d : Directory) (place : Place) (name : Path.Name) : Except ReadError Place :=
  match place with
  | .file _ => .error .notDirectory
  | .inside names =>
    if name = [] ∨ name = Path.here then .ok place
    else if name = Path.up then .ok (if names = [] then .outside else .inside names.dropLast)
    else d.lookup names name
  | .outside =>
    if name = [] ∨ name = Path.here ∨ name = Path.up then .ok .outside
    else if maxNameBytes < byteCount name then .error .nameTooLong
    else .error .notFound

def walk (d : Directory) (place : Place) : List Path.Name → Except ReadError Place
  | [] => .ok place
  | name :: rest =>
    match d.step place name with
    | .ok place => d.walk place rest
    | .error e => .error e

/-- A path with a slash in front starts outside. -/
def start (path : List Char) : Place :=
  if path.head? = some '/' then .outside else .inside []

/-- Reads the file that a path leads to. -/
def read (d : Directory) (path : String) : Except ReadError (List UInt8) :=
  if path.toList.contains '\x00' then .error .nulInPath
  else if maxPathBytes < path.utf8ByteSize then .error .nameTooLong
  else
    match d.walk (start path.toList) (Path.split path.toList) with
    | .ok (.file content) => .ok content
    | .ok (.inside _) | .ok .outside => .error .isDirectory
    | .error e => .error e

end Directory

end Chip8

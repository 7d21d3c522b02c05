/-! # File paths

A `Path` is a root and the names behind it.  Empty names and single dots are dropped when a path is
read, double dots are kept; a path that starts with exactly two slashes keeps both. -/

namespace Preferences

/-- A path: its root, which is empty for a relative path, and its names. -/
structure Path where
  root : String
  names : List String
  deriving DecidableEq, Repr

namespace Path

/-- The pieces of a text between slashes. -/
def pieces : List Char → List (List Char)
  | [] => [[]]
  | c :: rest =>
    if c = '/' then [] :: pieces rest
    else
      match pieces rest with
      | piece :: more => (c :: piece) :: more
      | [] => [[c]]

/-- The root that a number of leading slashes makes. -/
def rootOf : (slashes : Nat) → String
  | 0 => ""
  | 2 => "//"
  | _ => "/"

def ofText (s : String) : Path where
  root := rootOf (s.toList.takeWhile (· == '/')).length
  names := ((pieces s.toList).map String.ofList).filter fun name => name != "" && name != "."

/-- Writes a path; the empty relative path is a dot. -/
def text (p : Path) : String :=
  if p.root == "" && p.names.isEmpty then "." else p.root ++ "/".intercalate p.names

/-- The path without its last name. -/
def parent (p : Path) : Path := { p with names := p.names.dropLast }

/-- The path of something in a directory. -/
def child (p : Path) (name : String) : Path := { p with names := p.names ++ [name] }

def isAbsolute (p : Path) : Bool := p.root != ""

/-- Whether a name in the path holds the null character. -/
def hasNull (p : Path) : Bool := p.names.any fun name => name.toList.contains '\x00'

/-- The names of a path without double dots, each of which takes away the name before it. -/
def collapse (names : List String) : List String :=
  names.foldl (fun kept name => if name == ".." then kept.dropLast else kept ++ [name]) []

/-- The absolute path that `p` means in a directory, without double dots. -/
def resolve (directory p : Path) : Path where
  root := "/"
  names := collapse (if p.isAbsolute then p.names else directory.names ++ p.names)

/-- The path and those of the directories around it, the nearest first. -/
def outward (p : Path) : List Path :=
  (List.range (p.names.length + 1)).map fun n =>
    { p with names := p.names.take (p.names.length - n) }

end Path

end Preferences

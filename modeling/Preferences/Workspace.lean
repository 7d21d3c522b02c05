import Preferences.Failure
import Preferences.Toml.Document

/-! # Workspaces

A `Workspace` is a tree of files and directories with a working directory in it.  A path is looked
up name by name; every name but the last has to be that of a directory, and double dots lead back to
the directory above.  A path of `maxPathBytes` and more is refused, and so is a name of more than
`maxNameBytes` where it is looked for in a directory; nothing has a name with a null character. -/

namespace Preferences

/-- A file with its content, or a directory with what is in it. -/
inductive FileTree
  | file (content : ByteArray)
  | directory (children : List (String × FileTree))

/-- The length of the shortest path that is too long, in bytes. -/
def maxPathBytes : Nat := 4096

/-- The length of the longest name, in bytes. -/
def maxNameBytes : Nat := 255

namespace FileTree

/-- What a list of names leads to, if anything, from a place and the directories above it, nearest
first. -/
def walk (above : List FileTree) (place : FileTree) :
    List String → Except FileFault (Option FileTree)
  | [] => .ok (some place)
  | name :: rest =>
    match place with
    | file _ => .ok none
    | directory children =>
      if name = ".." then
        match above with
        | [] => walk [] place rest
        | parent :: above => walk above parent rest
      else
        match children.lookup name with
        | some child => walk (place :: above) child rest
        | none => if maxNameBytes < name.utf8ByteSize then .error .nameTooLong else .ok none

/-- The children with another one, in place of the one of the same name if there is one. -/
def replaceChild (name : String) (child : FileTree) :
    List (String × FileTree) → List (String × FileTree)
  | [] => [(name, child)]
  | (other, old) :: rest =>
    if other = name then (name, child) :: rest else (other, old) :: replaceChild name child rest

def children : FileTree → List (String × FileTree)
  | directory children => children
  | file _ => []

/-- The tree with something in it at the end of a list of names, in directories where none were. -/
def insert (thing : FileTree) : List String → FileTree → FileTree
  | [], _ => thing
  | name :: rest, tree =>
    let old := (tree.children.lookup name).getD (directory [])
    directory (replaceChild name (insert thing rest old) tree.children)

/-- The tree with a directory at the end of a list of names, if there was nothing. -/
def makeDirectory (names : List String) (tree : FileTree) : FileTree :=
  match walk [] tree names with
  | .ok (some _) => tree
  | _ => insert (directory []) names tree

end FileTree

/-- A tree of files with a working directory. -/
structure Workspace where
  root : FileTree
  directory : Path

namespace Workspace

/-- What stands at a path, if anything does. -/
def find (w : Workspace) (p : Path) : Except Failure (Option FileTree) :=
  if p.hasNull then .ok none
  else if maxPathBytes ≤ p.text.utf8ByteSize then .error (.unreadable .nameTooLong)
  else
    let names := if p.isAbsolute then p.names else w.directory.names ++ p.names
    (FileTree.walk [] w.root names).mapError .unreadable

def holds (w : Workspace) (p : Path) : Except Failure Bool := (w.find p).map Option.isSome

/-- The absolute path that a path means, without double dots. -/
def resolve (w : Workspace) (p : Path) : Except Failure Path :=
  if p.hasNull then .error (.unreadable .nullInName) else .ok (Path.resolve w.directory p)

/-- The value of the document at a path; `malformed` is the failure if it is not well-formed. -/
def document (w : Workspace) (malformed : Failure) (p : Path) : Except Failure Value := do
  match ← w.find p with
  | none => throw (.missingFile p)
  | some (.directory _) => throw (.unreadable .isDirectory)
  | some (.file content) =>
    match String.fromUTF8? content with
    | none => throw (.unreadable .notText)
    | some s =>
      match Toml.read s.toList with
      | .ok v => return v
      | .error .numberTooLong => throw (.unreadable .numberTooLong)
      | .error .tooDeep => throw (.unreadable .tooDeep)
      | .error .malformed => throw malformed

end Workspace

end Preferences

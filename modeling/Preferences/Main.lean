import Preferences.CommandLine.Run

/-! # The program

Everything with effects is here: the files that a command may read are read in advance, the command
is carried out on them, and what it leaves is printed. -/

namespace Preferences.CommandLine

/-- The files that the settings may stand in: the given one, or those of the directories outward. -/
def settingsCandidates (directory near : Path) : Option String → List Path
  | some file => [Path.ofText file]
  | none =>
    (Path.resolve directory near).outward.flatMap fun d =>
      [d.child Settings.fileName, d.child Settings.sharedFileName]

/-- The files that a command may read. -/
def Command.candidates (directory : Path) : Command → List Path
  | .generate request =>
    let description := Path.ofText request.description
    description :: settingsCandidates directory description.parent request.settings
  | .types settings => settingsCandidates directory directory settings

/-- The code of the error that there is a directory where a file is read. -/
def directoryError : UInt32 := 21

/-- What stands at a path, if anything does; of a directory only that it is one. -/
def readThing (p : Path) : IO (Option FileTree) := do
  if p.hasNull then return none
  try
    return some (.file (← IO.FS.readBinFile p.text))
  catch
    | .noFileOrDirectory .. => return none
    | .inappropriateType _ code _ =>
      return if code == directoryError then some (.directory []) else none
    | e => throw e

/-- The tree with something at a path, and with every directory on the way. -/
def place (directory : Path) (tree : FileTree) (p : Path) (thing : FileTree) : FileTree :=
  let names := if p.isAbsolute then p.names else directory.names ++ p.names
  let passed := (List.range names.length).foldl (fun tree n =>
    tree.makeDirectory (Path.collapse (names.take n))) tree
  match thing with
  | .file _ => FileTree.insert thing (Path.collapse names) passed
  | .directory _ => passed.makeDirectory (Path.collapse names)

/-- The workspace with the files at the paths, as far as they are there. -/
def readWorkspace (directory : Path) (paths : List Path) : IO Workspace := do
  let start := FileTree.makeDirectory directory.names (.directory [])
  let tree ← paths.foldlM (fun tree p => do
    match ← readThing p with
    | some thing => return place directory tree p thing
    | none => return tree) start
  return ⟨tree, directory⟩

/-- Carries out a command line; gives the exit code. -/
def execute (directory : Path) (words : List String) : IO UInt32 := do
  match Invocation.ofWords words with
  | .error stop =>
    IO.print stop.output
    if stop = .mistake then IO.eprint usage
    return stop.code.toUInt32
  | .ok invocation =>
    let paths := (invocation.command.map (Command.candidates directory)).getD []
    match invocation.run (← readWorkspace directory paths) with
    | .ok outcome =>
      IO.eprint (outcome.messages invocation.verbose)
      IO.print outcome.output
      return outcome.code.toUInt32
    | .error _ =>
      IO.eprintln "preferencer: the files hold values that cannot be used"
      return 1

end Preferences.CommandLine

/-- Carries out the command line in the working directory. -/
def main (words : List String) : IO UInt32 := do
  let directory := Preferences.Path.ofText (toString (← IO.currentDir))
  Preferences.CommandLine.execute directory words

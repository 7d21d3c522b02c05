import Preferences.Settings.Reading
import Preferences.Workspace

/-! # Files of settings

Settings stand in the table `preferencer` of a document, or else in the table `preferencer` of its
table `tool`.  `Settings.find` looks for the nearest file that has any, from a directory outward: a
file named `preferencer.toml` counts whatever is in it, a `pyproject.toml` only with the second
table, and where a directory has both, the first one counts and the second is not even read. -/

namespace Preferences.Settings

/-- The name of a file that only holds settings. -/
def fileName : String := "preferencer.toml"

/-- The name of a file that may hold settings beside other things. -/
def sharedFileName : String := "pyproject.toml"

/-- The table of a document under which others stand. -/
def toolTable (document : Value) : Except Misuse Value := do
  return (← document.get? "tool").getD (.table [])

/-- The settings in a document, if there are any. -/
def inDocument? (document : Value) : Except Misuse (Option Value) := do
  match ← document.get? "preferencer" with
  | some settings => return some settings
  | none => (← toolTable document).get? "preferencer"

/-- The document in a file of settings. -/
def document (w : Workspace) (p : Path) : Except Failure Value :=
  w.document (.setting .malformedDocument (some p)) p

/-- The settings in a file; where there is no file, or none in it, nothing is set. -/
def load (w : Workspace) (p : Path) : Except Failure Settings := do
  if ← w.holds p then
    match ← inDocument? (← document w p) with
    | some settings => ofValue settings (some p)
    | none => return {}
  else return {}

/-- The file of a directory that has settings. -/
def fileIn (w : Workspace) (directory : Path) : Except Failure (Option Path) := do
  let own := directory.child fileName
  let shared := directory.child sharedFileName
  if ← w.holds own then return some own
  else if ← w.holds shared then
    if ← (← toolTable (← document w shared)).contains "preferencer" then return some shared
    else return none
  else return none

/-- The first file with settings in a list of directories. -/
def findIn (w : Workspace) : List Path → Except Failure (Option Path)
  | [] => .ok none
  | directory :: rest =>
    match fileIn w directory with
    | .ok none => findIn w rest
    | found => found

/-- The nearest file with settings, from a directory outward. -/
def find (w : Workspace) (start : Path) : Except Failure (Option Path) := do
  findIn w (← w.resolve start).outward

end Preferences.Settings

import Preferences.Path
import Preferences.Value.Text

/-! # Locations

Where a declaration was read: a file, if it is known, and a line entry, which is shown as it was
written and is nothing where there was none. -/

namespace Preferences

/-- A place in a description. -/
structure Location where
  file : Option Path
  line : Value

def Location.text (l : Location) : String :=
  let file := (l.file.map Path.text).getD "<unknown>"
  match l.line with
  | .null => file
  | line => file ++ ":" ++ line.plain

end Preferences

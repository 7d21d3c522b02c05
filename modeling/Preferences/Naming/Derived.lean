import Preferences.Naming.Style
import Preferences.Value.Basic

/-! # Names derived from entries

A preference may carry any value as its name.  A style derives names from texts only; the functions
here say how it fails on other values. -/

namespace Preferences.Naming.Style

/-- Why the style derives nothing from a value that is no text. -/
def misuse : Style → Value → Misuse
  | snake, _ => .notText
  | camel, .list _ => .notText
  | camel, _ => .notSliceable

/-- The suffix of a method for a preference of this name. -/
def suffixOf (style : Style) : Value → Except Misuse String
  | .text name => .ok (String.ofList (style.methodSuffix name.toList))
  | name => .error (style.misuse name)

/-- The variable that holds the value of a preference of this name. -/
def variableOf (style : Style) : Value → Except Misuse String
  | .text name => .ok (String.ofList (style.variableName name.toList))
  | name => .error (style.misuse name)

end Preferences.Naming.Style

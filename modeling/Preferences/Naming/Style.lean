import Preferences.Naming.SnakeCase
import Preferences.Text.Identifier

/-! # Naming styles

A style derives two names from the name of a preference: the suffix that a method name such as `set`
gets, and the name of the variable that holds the value.  A variable name that is a keyword or
`self` gets an underscore at its end. -/

namespace Preferences.Naming

open Preferences.Text

/-- How generated names are written. -/
inductive Style
  | snake
  | camel
  deriving DecidableEq, Repr

namespace Style

/-- The word that selects the style. -/
def name : Style → String
  | snake => "snake"
  | camel => "camel"

def all : List Style := [camel, snake]

/-- The style that a word selects. -/
def ofName? (word : String) : Option Style := all.find? (·.name == word)

/-- The suffix that makes a method name for the preference. -/
def methodSuffix : Style → List Char → List Char
  | snake, preference => '_' :: snakeCase preference
  | camel, preference => upper (preference.take 1) ++ preference.drop 1

/-- The name, with an underscore where it could not stand as a variable. -/
def safeName (name : List Char) : List Char :=
  if isKeyword name || name == "self".toList then name ++ ['_'] else name

/-- The name of a variable that holds the value of the preference. -/
def variableName : Style → List Char → List Char
  | snake, preference => safeName (snakeCase preference)
  | camel, preference => safeName (lower (preference.take 1) ++ preference.drop 1)

theorem ofName?_name (style : Style) : ofName? style.name = some style := by
  cases style <;> rfl

end Style

/-- What is said about something, as it stands in source code, that selects no style. -/
def unknownStyleMessage (source : String) : String :=
  "Unknown naming style " ++ source ++ " (available: "
    ++ ", ".intercalate (Style.all.map Style.name) ++ ")"

end Preferences.Naming

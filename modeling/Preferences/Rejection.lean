import Preferences.Location

/-! # Rejected declarations

A description or a declaration is rejected for one of the reasons in `Reason`, at a location if one
is known.  `Rejection.message` words the rejection, with the location in front. -/

namespace Preferences

/-- Why a declaration cannot be accepted or generated. -/
inductive Reason
  /-- The document is not well-formed. -/
  | malformedDocument
  /-- The text names no type. -/
  | badTypeReference (text : String)
  /-- The text names a type without its module. -/
  | unlocatedType (text : String)
  /-- A class has no entry `source`. -/
  | missingSource
  /-- A preference lacks an entry. -/
  | missingEntry (entry : String)
  /-- The value is no visibility. -/
  | unknownVisibility (value : Value)
  /-- The entry has to be a truth value. -/
  | notAFlag (entry : String) (value : Value)
  /-- The value declares no setter or remover. -/
  | badMethod (value : Value)
  /-- The value names no method to call after construction. -/
  | badHook (value : Value)
  /-- A method is declared though it is not to be generated. -/
  | disabledMethod (method : Value)
  /-- The type that the class extends has no module. -/
  | sourceWithoutModule (name : Value) (source : String)
  /-- The class has no preferences. -/
  | noPreferences (name : Value)
  /-- The class names a store and asks for the default store. -/
  | twoStores (name store : Value)
  /-- The class asks for a named store without naming it. -/
  | noStoreName (name : Value)
  /-- Two methods of the class would have the same name. -/
  | repeatedMethod (name method : Value)
  /-- No store holds values of the type. -/
  | unsupportedType (valueType : String) (name : Value)

/-- The reason in words. -/
def Reason.message : Reason → String
  | malformedDocument => "Invalid TOML"
  | badTypeReference text => "Invalid type reference: " ++ (Value.text text).source
  | unlocatedType text =>
    "Type reference " ++ (Value.text text).source ++ " needs a module to import from"
  | missingSource => "Class is missing 'source'"
  | missingEntry entry => "Preference is missing " ++ (Value.text entry).source
  | unknownVisibility value => "Unknown visibility " ++ value.source
  | notAFlag entry value =>
    (Value.text entry).source ++ " must be true or false, not " ++ value.source
  | badMethod value => "Invalid method declaration " ++ value.source
  | badHook value => "Invalid post_construct " ++ value.source
  | disabledMethod method =>
    "Method " ++ method.source ++ " is declared but generation is disabled"
  | sourceWithoutModule name source =>
    name.plain ++ " extends " ++ (Value.text source).source ++ ", which has no module"
  | noPreferences name => name.plain ++ " declares no preferences"
  | twoStores name store =>
    name.plain ++ " uses the default store but names store " ++ store.source
  | noStoreName name => name.plain ++ " needs a store name"
  | repeatedMethod name method =>
    name.plain ++ " would define method " ++ method.source ++ " more than once"
  | unsupportedType valueType name =>
    "Type " ++ valueType ++ " not supported by the preference store (in " ++ name.plain ++ ")"

/-- The values that the reason is worded with. -/
def Reason.values : Reason → List Value
  | malformedDocument | badTypeReference _ | unlocatedType _ | missingSource | missingEntry _ => []
  | unknownVisibility value | notAFlag _ value | badMethod value | badHook value => [value]
  | disabledMethod method => [method]
  | sourceWithoutModule name _ | noPreferences name | noStoreName name => [name]
  | twoStores name store => [name, store]
  | repeatedMethod name method => [name, method]
  | unsupportedType _ name => [name]

/-- A reason and where it was found. -/
structure Rejection where
  reason : Reason
  location : Option Location

/-- The values that the rejection is worded with. -/
def Rejection.values (r : Rejection) : List Value :=
  r.reason.values ++ (r.location.map (·.line)).toList

def Rejection.message (r : Rejection) : String :=
  ((r.location.map fun l => l.text ++ ": ").getD "") ++ r.reason.message

end Preferences

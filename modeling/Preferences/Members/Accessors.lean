import Preferences.Members.Names
import Preferences.Naming.Derived
import Preferences.Source.ClassDef
import Preferences.StorageTable

/-! # Getters, setters and removers

The methods of one preference.  A getter reads from the store.  Setters and removers write through
the editor of the open transaction if there is one, and otherwise through an editor of their own,
which they apply at once; `editLines` is the body they share. -/

namespace Preferences.Members

open Naming (Style)

/-- The expression for the value where nothing is stored. -/
def defaultExpression (p : Preference) (method : StorageMethod) : String :=
  if p.default == "" then method.default.plain else p.default

/-- The values that the getter is written with. -/
def getterValues (p : Preference) (method : StorageMethod) : List Value :=
  [method.get, p.storageKey] ++ if p.default == "" then [method.default] else []

/-- The getter of a preference. -/
def getter (p : Preference) (valueType : String) (method : StorageMethod) : MethodDef where
  name := p.getter.name
  kind := .getter
  body := ["return self." ++ storeField ++ "." ++ method.get.plain ++ "("
    ++ p.storageKey.literal ++ ", " ++ defaultExpression p method ++ ")"]
  returns := valueType
  visibility := p.getter.visibility
  overrides := p.getter.overrides

/-- The body of a method that makes one edit. -/
def editLines (operation : String) : List String :=
  [transactionVariable ++ " = self." ++ transactionField,
    editorVariable ++ " = " ++ transactionVariable ++ "." ++ editorField ++ " if "
      ++ transactionVariable ++ " is not None else self." ++ storeField ++ ".edit()",
    editorVariable ++ "." ++ operation,
    "if " ++ transactionVariable ++ " is None:",
    "    " ++ editorVariable ++ ".apply()"]

/-- How a setter or remover is known. -/
structure Identity where
  name : Value
  visibility : Visibility
  overrides : Bool

/-- The identity of a setter or remover: that of the declared method, or a derived name. -/
def identity (style : Style) (mutator : Mutator) (stem : String) (p : Preference) :
    Except Misuse Identity :=
  match mutator.method? with
  | some m => .ok ⟨m.name, m.visibility, m.overrides⟩
  | none => (style.suffixOf p.name).map fun suffix => ⟨(stem ++ suffix : String), .everyone, false⟩

/-- The parameter of a setter, kept apart from the variables of its body. -/
def parameterName (style : Style) (p : Preference) : Except Misuse String :=
  (style.variableOf p.name).map fun name =>
    if name == editorVariable || name == transactionVariable then name ++ "_value" else name

/-- The setter of a preference. -/
def setter (style : Style) (p : Preference) (valueType : String) (method : StorageMethod) :
    Except Misuse MethodDef := do
  let known ← identity style p.setter "set" p
  let parameter ← parameterName style p
  Value.requireWritable [method.put, p.storageKey]
  return {
    name := known.name, kind := .setter
    body := editLines
      (method.put.plain ++ "(" ++ p.storageKey.literal ++ ", " ++ parameter ++ ")")
    parameters := [⟨parameter, valueType⟩]
    visibility := known.visibility, overrides := known.overrides }

/-- The remover of a preference. -/
def remover (style : Style) (p : Preference) : Except Misuse MethodDef := do
  let known ← identity style p.remover "remove" p
  Value.requireWritable [p.storageKey]
  return {
    name := known.name, kind := .remover
    body := editLines ("remove(" ++ p.storageKey.literal ++ ")")
    visibility := known.visibility, overrides := known.overrides }

/-- The methods of a preference whose type has a storage method. -/
def accessors (style : Style) (p : Preference) (valueType : String) (method : StorageMethod) :
    Except Misuse (List MethodDef) := do
  Value.requireWritable (getterValues p method)
  let setters ← if p.setter.isGenerated then (setter style p valueType method).map ([·]) else .ok []
  let removers ← if p.remover.isGenerated then (remover style p).map ([·]) else .ok []
  return getter p valueType method :: (setters ++ removers)

end Preferences.Members

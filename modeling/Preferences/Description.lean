import Preferences.Declaration.Basic
import Preferences.Naming.Derived
import Preferences.Settings.Basic
import Preferences.Value.Access

/-! # Descriptions

A description is a document whose entry `class` lists the classes to generate, each with its
preferences.  `Description.declarations` reads all of them and stops at the first that is rejected.
Within a class the source comes first, then the preferences in their order, then the other entries;
what is rejected within a preference is located at the preference, and everything else at the
class. -/

namespace Preferences.Description

/-- Rejects a declaration at a location. -/
def reject {α : Type} (location : Location) (reason : Reason) : Except Failure α :=
  .error (.ofRejection ⟨reason, some location⟩)

/-- The entry of a table, or nothing where there is none. -/
def entry (data : Value) (key : String) : Except Misuse Value := do
  return (← data.get? key).getD .null

def locationOf (file : Option Path) (data : Value) : Except Misuse Location := do
  return ⟨file, ← entry data "line"⟩

def visibilityOf (location : Location) (value : Value) : Except Failure Visibility :=
  match value with
  | .text word =>
    match Visibility.ofName? word with
    | some visibility => .ok visibility
    | none => reject location (.unknownVisibility value)
  | _ => reject location (.unknownVisibility value)

/-- The truth value under a key, false where there is none. -/
def flagOf (location : Location) (data : Value) (key : String) : Except Failure Bool := do
  match (← data.get? key).getD (.bool false) with
  | .bool b => return b
  | value => reject location (.notAFlag key value)

/-- The setter or remover that an entry asks for: a truth value, a name, or a table with a name. -/
def mutatorOf (location : Location) : Value → Except Failure Mutator
  | .null | .bool false => .ok .skip
  | .bool true => .ok .derived
  | .text name => .ok (.declared { name := name })
  | .table entries =>
    match Table.get? entries "name" with
    | some name => do
      let visibility ← visibilityOf location ((Table.get? entries "visibility").getD "public")
      return .declared { name, visibility }
    | none => reject location (.badMethod (.table entries))
  | value => reject location (.badMethod value)

/-- The method to call after construction that an entry asks for. -/
def hookOf (location : Location) : Value → Except Failure (Option Hook)
  | .null => .ok none
  | .text method => .ok (some { method := method })
  | .table entries =>
    match Table.get? entries "method" with
    | some method => do
      return some { method, takesContext := ← flagOf location (.table entries) "inject_context" }
    | none => reject location (.badHook (.table entries))
  | value => reject location (.badHook value)

/-- The name of the getter: the given one, or `get` with the suffix derived from the name. -/
def getterNameOf (settings : Settings) (name given : Value) : Except Misuse Value :=
  if given.isTruthy then .ok given
  else (settings.style.suffixOf name).map fun suffix => .text ("get" ++ suffix)

/-- The preference that a table describes. -/
def preferenceOf (settings : Settings) (file : Option Path) (data : Value) :
    Except Failure Preference := do
  let location ← locationOf file data
  let some name ← data.get? "name" | reject location (.missingEntry "name")
  let some valueType ← data.get? "type" | reject location (.missingEntry "type")
  let getter ← getterNameOf settings name (← entry data "getter")
  let visibility ← visibilityOf location ((← data.get? "visibility").getD "public")
  let key ← entry data "key"
  let default := (← data.get? "default").getD ""
  Value.requireWritable [default]
  let setter ← mutatorOf location (← entry data "setter")
  let remover ← mutatorOf location (← entry data "remover")
  return { name, valueType, getter := { name := getter, visibility }, key,
           default := default.plain, setter, remover, location := some location }

def typeRefOf (s : String) : Except Reason TypeRef :=
  let trimmed := String.ofList (Text.trim s.toList)
  match TypeRef.ofText s with
  | .ok ref => .ok ref
  | .error .badName => .error (.badTypeReference trimmed)
  | .error .noModule => .error (.unlocatedType trimmed)

def sourceOf (location : Location) : Value → Except Failure TypeRef
  | .text s =>
    match typeRefOf s with
    | .ok ref => .ok ref
    | .error reason => reject location reason
  | _ => .error (.misused .notText)

/-- The name of the class: the given one, or that of its source with the suffix. -/
def classNameOf (settings : Settings) (source : TypeRef) (given : Value) : Except Misuse Value :=
  if given.isTruthy then .ok given
  else
    match settings.classSuffix with
    | .text suffix => .ok (source.name ++ suffix : String)
    | _ => .error .notJoinable

/-- The draft of the class that a table describes. -/
def draftOf (settings : Settings) (file : Option Path) (data : Value) : Except Failure Draft := do
  let location ← locationOf file data
  let some sourceEntry ← data.get? "source" | reject location .missingSource
  let source ← sourceOf location sourceEntry
  let store ← entry data "store"
  let name ← classNameOf settings source (← entry data "name")
  let described ← ((← data.get? "preference").getD (.list [])).elements
  let preferences ← described.mapM (preferenceOf settings file)
  let isInterface ← flagOf location data "interface"
  let hook ← hookOf location (← entry data "post_construct")
  return { source, name, preferences, isInterface, useDefaultStore := store = .null,
           storeName := store, hook, location := some location }

/-- The declaration of the class that a table describes. -/
def declarationOf (settings : Settings) (file : Option Path) (data : Value) :
    Except Failure Declaration := do
  (← draftOf settings file data).toDeclaration.mapError .ofRejection

/-- The declarations of all classes that a document describes. -/
def declarations (settings : Settings) (file : Option Path) (document : Value) :
    Except Failure (List Declaration) := do
  let described ← ((← document.get? "class").getD (.list [])).elements
  described.mapM (declarationOf settings file)

end Preferences.Description

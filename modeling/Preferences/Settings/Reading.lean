import Preferences.Settings.Basic
import Preferences.Value.Access

/-! # Reading settings

`Settings.ofValue` reads settings from the value of a document.  The naming style and the storage
methods are checked, in this order; every other setting is taken over as it is.  Entries that are no
settings are passed over. -/

namespace Preferences.Settings

/-- The entry under a key, if the value contains the key. -/
def entry? (data : Value) (key : String) : Except Misuse (Option Value) := do
  if ← data.contains key then
    match data with
    | .table entries => return Table.get? entries key
    | _ => throw .notIndexable
  else return none

def styleOf (path : Option Path) (value : Value) : Except Failure Naming.Style :=
  if !value.isKey then .error (.misused .notKey)
  else
    match value with
    | .text word =>
      match Naming.Style.ofName? word with
      | some style => .ok style
      | none => .error (.ofSetting (.unknownStyle value) path)
    | _ => .error (.ofSetting (.unknownStyle value) path)

/-- The storage method that a setting gives; a default that is not set is none at all. -/
def methodOf : Value → Except MethodFault StorageMethod
  | .table entries =>
    match Table.get? entries "get", Table.get? entries "put" with
    | some get, some put => .ok ⟨get, put, (Table.get? entries "default").getD "None"⟩
    | none, _ => .error (.missing "get")
    | some _, none => .error (.missing "put")
  | v => .error (.notTable v)

/-- The storage methods that the entries of a table give. -/
def methodsOf (path : Option Path) (entries : Table) :
    Except Failure (List (Value × StorageMethod)) :=
  entries.mapM fun (valueType, setting) =>
    match methodOf setting with
    | .ok method => .ok (valueType, method)
    | .error fault => .error (.ofSetting (.badMethod valueType fault) path)

/-- The settings that a value holds; errors name the file they come from. -/
def ofValue (data : Value) (path : Option Path) : Except Failure Settings := do
  let unset : Settings := {}
  let style ←
    match ← entry? data "naming" with
    | some value => styleOf path value
    | none => pure unset.style
  let runtimeModule := (← entry? data "runtime_module").getD unset.runtimeModule
  let classSuffix := (← entry? data "class_suffix").getD unset.classSuffix
  let header := (← entry? data "header").getD unset.header
  match (← data.get? "types").getD (.table []) with
  | .table entries =>
    return { style, runtimeModule, classSuffix, header, types := ← methodsOf path entries }
  | _ => throw (.misused .notTable)

end Preferences.Settings

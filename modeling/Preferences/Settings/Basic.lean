import Preferences.Failure
import Preferences.Naming.Style
import Preferences.StorageTable

/-! # Settings

What all generated classes share: the naming style, the module that the generated code imports its
support from, the suffix of class names, the comment at the top and the storage methods of further
types.  Settings other than the style are kept as they were written. -/

namespace Preferences

/-- The module that generated code imports its support from, unless it is set otherwise. -/
def defaultRuntimeModule : Value := "preferencer.runtime"

/-- The comment at the top of generated code, unless it is set otherwise. -/
def defaultHeader : Value := "Generated by preferencer. Do not edit."

/-- Settings shared by all generated classes. -/
structure Settings where
  style : Naming.Style := .snake
  runtimeModule : Value := defaultRuntimeModule
  classSuffix : Value := "Impl"
  header : Value := defaultHeader
  types : List (Value × StorageMethod) := []
  deriving DecidableEq

namespace Settings

/-- The table with the method of one more type, which has to be a text. -/
def registerEntry (table : StorageTable) : Value × StorageMethod → Except Misuse StorageTable
  | (.text valueType, method) => .ok (table.register valueType method)
  | _ => .error .notTypeExpression

/-- The standard storage methods and those of the settings. -/
def storageTable (settings : Settings) : Except Misuse StorageTable :=
  settings.types.foldlM registerEntry StorageTable.standard

/-- A storage method as a table. -/
def methodTable (method : StorageMethod) : Value :=
  .table [("get", method.get), ("put", method.put), ("default", method.default)]

/-- The settings as a table. -/
def toTable (settings : Settings) : Value :=
  .table [("naming", settings.style.name), ("runtime_module", settings.runtimeModule),
    ("class_suffix", settings.classSuffix), ("header", settings.header),
    ("types", .table (settings.types.map fun entry => (entry.1, methodTable entry.2)))]

end Settings

end Preferences

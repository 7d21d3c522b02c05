import Preferences.Text.Blank
import Preferences.Value.Text

/-! # Storage methods by type

A `StorageTable` says for each type of preference which operations of a store read and write it, and
which default it has.  Blank characters in a type expression do not count: they are taken out before
a type is entered or looked up.  A type that is entered again keeps its place. -/

namespace Preferences

/-- The operations of a store for one type, and the default where nothing is stored. -/
structure StorageMethod where
  get : Value
  put : Value
  default : Value
  deriving DecidableEq

/-- A type expression without blanks. -/
def normalizeType (valueType : String) : String :=
  String.ofList (Text.removeBlanks valueType.toList)

/-- Storage methods under type expressions without blanks, in the order they were entered. -/
structure StorageTable where
  entries : List (String × StorageMethod)
  deriving DecidableEq

namespace StorageTable

/-- The entries with one more, in place of an entry of the same name if there is one. -/
def replaceOrAppend {α : Type} (name : String) (entry : α) : List (String × α) → List (String × α)
  | [] => [(name, entry)]
  | (other, old) :: rest =>
    if other = name then (name, entry) :: rest
    else (other, old) :: replaceOrAppend name entry rest

def empty : StorageTable := ⟨[]⟩

/-- Enters the method of a type. -/
def register (table : StorageTable) (valueType : String) (method : StorageMethod) :
    StorageTable :=
  ⟨replaceOrAppend (normalizeType valueType) method table.entries⟩

/-- The table with these types, entered in order. -/
def ofList (methods : List (String × StorageMethod)) : StorageTable :=
  methods.foldl (fun table entry => table.register entry.1 entry.2) empty

def resolve? (table : StorageTable) (valueType : String) : Option StorageMethod :=
  table.entries.lookup (normalizeType valueType)

/-- The types of the table in ascending order. -/
def supportedTypes (table : StorageTable) : List String :=
  (table.entries.map Prod.fst).mergeSort fun a b => decide (a ≤ b)

/-- The types that every store holds. -/
def standard : StorageTable := ofList [
  ("bool", ⟨"get_bool", "put_bool", "False"⟩),
  ("int", ⟨"get_int", "put_int", "0"⟩),
  ("float", ⟨"get_float", "put_float", "0.0"⟩),
  ("str", ⟨"get_str", "put_str", "None"⟩),
  ("set[str]", ⟨"get_str_set", "put_str_set", "None"⟩)]

end StorageTable

end Preferences

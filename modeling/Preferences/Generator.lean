import Preferences.Members.Accessors
import Preferences.Members.Lifecycle
import Preferences.Members.Transaction
import Preferences.Settings.Basic

/-! # Generating a class

A `Generator` turns a declaration into a class.  All types of preferences are resolved before
anything is made, so the first type that no store holds rejects the declaration; then two methods of
the same name do.  The methods stand in a fixed order: the one that returns the instance, those of
the preferences in their order, the constructor, and those that clear the store and open a
transaction. -/

namespace Preferences

/-- What generation depends on apart from the declaration. -/
structure Generator where
  table : StorageTable := StorageTable.standard
  style : Naming.Style := .snake
  runtimeModule : Value := defaultRuntimeModule

/-- The generator that settings ask for. -/
def Generator.ofSettings (settings : Settings) : Except Misuse Generator := do
  return ⟨← settings.storageTable, settings.style, settings.runtimeModule⟩

/-- A preference with its type and the storage method of the type. -/
structure Resolved where
  preference : Preference
  valueType : String
  method : StorageMethod

namespace Generator

/-- Resolves the type of a preference. -/
def resolve (g : Generator) (d : Declaration) (p : Preference) : Except Failure Resolved :=
  match p.valueType with
  | .text valueType =>
    match g.table.resolve? valueType with
    | some method => .ok ⟨p, valueType, method⟩
    | none =>
      .error (.ofRejection ⟨.unsupportedType valueType d.name, p.location <|> d.location⟩)
  | _ => .error (.misused .notTypeExpression)

/-- The first of the names that is the same as one before it. -/
def firstRepeated (seen : List Value) : List Value → Except Misuse (Option Value)
  | [] => .ok none
  | name :: rest =>
    if seen.any (·.same name) then .ok (some name)
    else if !name.isKey then .error .notKey
    else firstRepeated (seen ++ [name]) rest

/-- The imports of the module that holds the class. -/
def imports (g : Generator) (d : Declaration) : List Import :=
  [{ module := "threading" },
    { module := "types", names := ["TracebackType"] },
    { module := "typing", names := ["ClassVar"] },
    { module := d.source.module, names := [d.source.name], group := 1 },
    { module := g.runtimeModule
      names := ["Editor", "MissingContextError", "Store", "StoreContext"]
        ++ (if d.store.isDefault then ["get_default_store"] else [])
      group := 2 }]

/-- The methods of the class, in order. -/
def methods (g : Generator) (d : Declaration) : Except Failure (List MethodDef) := do
  let resolved ← d.preferences.mapM (g.resolve d)
  Value.requireWritable [d.name]
  let accessors ← resolved.mapM fun r =>
    (Members.accessors g.style r.preference r.valueType r.method : Except Misuse _)
  Value.requireWritable (d.store.name :: (d.hook.map (·.method)).toList)
  let owner := d.name.plain
  return Members.getInstance owner :: accessors.flatten
    ++ [Members.constructor d, Members.clear, Members.beginTransaction owner]

/-- The class with the given methods. -/
def assemble (g : Generator) (d : Declaration) (methods : List MethodDef) : ClassDef where
  name := d.name
  fields := Members.classFields d.name.plain
  methods := methods
  types := [Members.transaction d.name.plain]
  superclass := if d.isInterface then none else some d.source
  interfaces := if d.isInterface then [d.source] else []
  docstring := "Preference accessors for " ++ d.source.text ++ "."
  imports := g.imports d

/-- The class that a declaration asks for. -/
def generate (g : Generator) (d : Declaration) : Except Failure ClassDef := do
  let methods ← g.methods d
  match ← firstRepeated [] (methods.map (·.name)) with
  | some name => throw (.ofRejection ⟨.repeatedMethod d.name name, d.location⟩)
  | none => return g.assemble d methods

end Generator

end Preferences

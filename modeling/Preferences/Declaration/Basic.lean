import Preferences.Rejection
import Preferences.TypeRef

/-! # Declared preferences

A `Declaration` is one class to generate: the type it extends, its name, the preferences it stores
and where it gets its store from.  Names, keys and type expressions are kept as they were written;
what they have to be is checked where they are used.  `Declaration.check` builds a declaration from
a draft and rejects one that contradicts itself, so every declaration extends a type of a module,
has a preference and, if it uses a named store, a name for it. -/

namespace Preferences

/-- Who may call a method. -/
inductive Visibility
  | everyone
  | subclasses
  | owner
  deriving DecidableEq, Repr

namespace Visibility

/-- The word for a visibility. -/
def name : Visibility → String
  | everyone => "public"
  | subclasses => "protected"
  | owner => "private"

def all : List Visibility := [everyone, subclasses, owner]

/-- The visibility that a word names. -/
def ofName? (word : String) : Option Visibility := all.find? (·.name == word)

theorem ofName?_name (v : Visibility) : ofName? v.name = some v := by
  cases v <;> rfl

end Visibility

/-- A method that the extended type declares. -/
structure DeclaredMethod where
  name : Value
  visibility : Visibility := .everyone
  overrides : Bool := true
  isAbstract : Bool := false

/-- Whether a setter or remover is generated, and how it is named. -/
inductive Mutator
  /-- None is generated. -/
  | skip
  /-- One is generated, with the name that the naming style derives. -/
  | derived
  /-- The declared method is implemented. -/
  | declared (method : DeclaredMethod)

namespace Mutator

/-- Whether a method is generated. -/
def isGenerated : Mutator → Bool
  | skip => false
  | _ => true

def method? : Mutator → Option DeclaredMethod
  | declared method => some method
  | _ => none

/-- The mutator with these settings; a declared method cannot be left out. -/
def ofFlags (generate : Bool) : Option DeclaredMethod → Except Rejection Mutator
  | none => .ok (if generate then derived else skip)
  | some method =>
    if generate then .ok (declared method) else .error ⟨.disabledMethod method.name, none⟩

end Mutator

/-- A method that is called at the end of the construction. -/
structure Hook where
  method : Value
  takesContext : Bool := false

/-- One stored property. -/
structure Preference where
  name : Value
  valueType : Value
  getter : DeclaredMethod
  key : Value := .null
  default : String := ""
  setter : Mutator := .skip
  remover : Mutator := .skip
  location : Option Location := none

/-- The key that the property is stored under: its own if it has one, otherwise its name. -/
def Preference.storageKey (p : Preference) : Value := p.key.orElse p.name

/-- Where a class gets its store from. -/
inductive StoreChoice
  /-- The default store of the context. -/
  | default
  /-- The store of this name. -/
  | named (name : Value) (named : name.isTruthy)

/-- A class as it was described, before it is known to make sense. -/
structure Draft where
  source : TypeRef
  name : Value
  preferences : List Preference
  isInterface : Bool := false
  useDefaultStore : Bool := true
  storeName : Value := .null
  hook : Option Hook := none
  location : Option Location := none

/-- A class to generate. -/
structure Declaration where
  source : TypeRef
  name : Value
  preferences : List Preference
  isInterface : Bool
  store : StoreChoice
  hook : Option Hook
  location : Option Location
  source_module_ne : source.module ≠ ""
  preferences_ne : preferences ≠ []

namespace Draft

/-- The store that a draft asks for. -/
def storeChoice (d : Draft) : Except Reason StoreChoice :=
  if d.useDefaultStore then
    if d.storeName = .null then .ok .default else .error (.twoStores d.name d.storeName)
  else if named : d.storeName.isTruthy then .ok (.named d.storeName named)
  else .error (.noStoreName d.name)

/-- The declaration that a draft makes, or the reason why it makes none. -/
def check (d : Draft) : Except Reason Declaration :=
  if hs : d.source.module = "" then .error (.sourceWithoutModule d.name d.source.name)
  else if hp : d.preferences = [] then .error (.noPreferences d.name)
  else d.storeChoice.map fun store => {
    source := d.source, name := d.name, preferences := d.preferences
    isInterface := d.isInterface, store := store, hook := d.hook, location := d.location
    source_module_ne := hs, preferences_ne := hp }

/-- The declaration that a draft makes; a rejection carries the location of the draft. -/
def toDeclaration (d : Draft) : Except Rejection Declaration :=
  d.check.mapError fun reason => ⟨reason, d.location⟩

end Draft

/-- The name of the store, which is nothing for the default store. -/
def StoreChoice.name : StoreChoice → Value
  | default => .null
  | named name _ => name

def StoreChoice.isDefault : StoreChoice → Bool
  | default => true
  | named _ _ => false

end Preferences

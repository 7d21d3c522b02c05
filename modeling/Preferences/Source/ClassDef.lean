import Preferences.Declaration.Basic
import Preferences.Value.Same

/-! # Generated classes

The parts of a generated class as plain records: imports, fields, methods with the lines of their
bodies, and nested classes.  Names that come from a declaration are kept as they were written
there. -/

namespace Preferences

/-- What a generated method is for. -/
inductive MethodKind
  | getter
  | setter
  | remover
  | constructor
  | getInstance
  | clear
  | beginTransaction
  | commit
  | rollback
  | enter
  | leave
  deriving DecidableEq, Repr

namespace MethodKind

/-- The word for a kind of method. -/
def name : MethodKind → String
  | getter => "getter"
  | setter => "setter"
  | remover => "remover"
  | constructor => "constructor"
  | getInstance => "get_instance"
  | clear => "clear"
  | beginTransaction => "begin_transaction"
  | commit => "commit"
  | rollback => "rollback"
  | enter => "enter"
  | leave => "exit"

def all : List MethodKind :=
  [getter, setter, remover, constructor, getInstance, clear, beginTransaction, commit, rollback,
    enter, leave]

/-- The kind that a word names. -/
def ofName? (word : String) : Option MethodKind := all.find? (·.name == word)

theorem ofName?_name (kind : MethodKind) : ofName? kind.name = some kind := by
  cases kind <;> rfl

end MethodKind

/-- An import: of a module, or of names from it.  Imports with a lower group come first. -/
structure Import where
  module : Value
  names : List String := []
  group : Int := 0
  deriving DecidableEq

/-- A field of a class, with its type and, if it has one, its first value. -/
structure FieldDef where
  name : String
  type : String
  isStatic : Bool := false
  initializer : Option String := none
  deriving DecidableEq

structure Parameter where
  name : String
  type : String
  deriving DecidableEq

/-- A method: the lines of its body are indented relative to the body. -/
structure MethodDef where
  name : Value
  kind : MethodKind
  body : List String
  parameters : List Parameter := []
  returns : String := "None"
  visibility : Visibility := .everyone
  isStatic : Bool := false
  overrides : Bool := false
  docstring : String := ""
  deriving DecidableEq

/-- A class with everything it holds. -/
structure ClassDef where
  name : Value
  fields : List FieldDef := []
  methods : List MethodDef := []
  types : List ClassDef := []
  superclass : Option TypeRef := none
  interfaces : List TypeRef := []
  docstring : String := ""
  imports : List Import := []

namespace ClassDef

def bases (c : ClassDef) : List TypeRef := c.superclass.toList ++ c.interfaces

def method? (c : ClassDef) (name : Value) : Option MethodDef := c.methods.find? (·.name.same name)

def nested? (c : ClassDef) (name : Value) : Option ClassDef := c.types.find? (·.name.same name)

end ClassDef

end Preferences

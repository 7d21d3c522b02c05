import Preferences.Text.Blank
import Preferences.Text.Identifier

/-! # References to types

A `TypeRef` names a type and the module it is imported from.  It is written `module:Name` or
`module.Name`; the first colon separates the two, or, where there is none, the last dot. -/

namespace Preferences

/-- A type of a module. -/
structure TypeRef where
  module : String
  name : String
  deriving DecidableEq, Repr

namespace TypeRef

open Text

/-- Why a text is no reference to a type. -/
inductive Fault
  /-- The name is missing or no identifier. -/
  | badName
  /-- The module is missing. -/
  | noModule
  deriving DecidableEq, Repr

/-- The characters before and behind the first colon. -/
def splitColon (s : List Char) : List Char × List Char :=
  (s.takeWhile (· != ':'), (s.dropWhile (· != ':')).drop 1)

/-- The characters before and behind the last dot; without a dot all are behind it. -/
def splitLastDot (s : List Char) : List Char × List Char :=
  let name := (s.reverse.takeWhile (· != '.')).reverse
  (s.take (s.length - name.length - 1), name)

/-- The module and the name in a text without blanks around it. -/
def split (s : List Char) : List Char × List Char :=
  if s.contains ':' then splitColon s else splitLastDot s

def ofChars (s : List Char) : Except Fault TypeRef :=
  let (module, name) := split (trim s)
  if !isIdentifier name then .error .badName
  else if module.isEmpty then .error .noModule
  else .ok ⟨String.ofList module, String.ofList name⟩

def ofText (s : String) : Except Fault TypeRef := ofChars s.toList

def text (ref : TypeRef) : String := ref.module ++ "." ++ ref.name

end TypeRef

end Preferences

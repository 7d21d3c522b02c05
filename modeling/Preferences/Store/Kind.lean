import Preferences.Number.Numeral
import Preferences.Store.Batch
import Preferences.Value.Access
import Preferences.Value.Text

/-! # Kinds of stored values

A store is written and read by kind.  `Kind.convert` makes a value of the kind out of any value
where that is possible, and `Kind.read` gives a stored value only to the reader of its own kind. -/

namespace Preferences.Store

/-- Why an operation on a store fails. -/
inductive Fault
  /-- A value is used where its kind does not fit. -/
  | misused (misuse : Misuse)
  /-- The value under the key is not of the kind that is read. -/
  | otherKind (key held : Value)
  /-- A listener has raised an error. -/
  | raised (listener : String)
  /-- The listener is not registered. -/
  | notRegistered
  /-- The listeners answer each other without end. -/
  | endless
  /-- There is no context to take stores from. -/
  | noContext
  /-- There is no editor of this number. -/
  | noEditor

/-- The fault in words, if it has any. -/
def Fault.message? : Fault → Option String
  | otherKind key held => some ("Preference " ++ key.source ++ " holds a " ++ held.kindName)
  | raised listener => some ("listener " ++ listener)
  | misused _ | notRegistered | endless | noContext | noEditor => none

/-- A kind of value that stores are written and read by. -/
inductive Kind
  | bool
  | int
  | float
  | text
  | textSet
  deriving DecidableEq, Repr

namespace Kind

def toInt : Value → Except Misuse Int
  | .bool b => .ok (if b then 1 else 0)
  | .int n => .ok n
  | .float x =>
    if x.isNaN then .error .notNumeral
    else if x.isInfinite then .error .outOfRange
    else .ok x.truncate
  | .text s =>
    match Numeral.readInt? s.toList with
    | some n => .ok n
    | none => .error .notNumeral
  | _ => .error .notConvertible

/-- The floating-point number nearest to an integer. -/
def nearest (n : Int) : Except Misuse Binary64 :=
  match Binary64.ofInt? n with
  | some x => .ok x
  | none => .error .outOfRange

def toFloat : Value → Except Misuse Binary64
  | .bool b => nearest (if b then 1 else 0)
  | .int n => nearest n
  | .float x => .ok x
  | .text s =>
    match Numeral.readFloat? s.toList with
    | some x => .ok x
    | none => .error .notNumeral
  | _ => .error .notConvertible

def toSet (v : Value) : Except Misuse (List Value) := do
  let elements ← v.elements
  if elements.all Value.isKey then return Value.distinct elements else throw .notKey

/-- What is stored for a value written by this kind; no text and no set are stored for nothing. -/
def convert (kind : Kind) (v : Value) : Except Misuse (Option Value) :=
  match kind, v with
  | bool, v => .ok (some (.bool v.isTruthy))
  | int, v => (toInt v).map fun n => some (.int n)
  | float, v => (toFloat v).map fun x => some (.float x)
  | text, .null | textSet, .null => .ok none
  | text, v => do
    Value.requireWritable [v]
    return some (.text v.plain)
  | textSet, v => (toSet v).map fun items => some (.frozenset items)

/-- The operation that writes a value by this kind. -/
def write (kind : Kind) (key v : Value) : Except Misuse Operation := do
  match ← kind.convert v with
  | some stored => return .put key stored
  | none => return .remove key

/-- Whether a stored value is of this kind. -/
def fits : Kind → Value → Bool
  | bool, .bool _ | int, .int _ | float, .float _ | text, .text _ | textSet, .frozenset _ => true
  | _, _ => false

/-- What a reader gets to see of a stored value: a set of its own in place of the stored one. -/
def view : Value → Value
  | .frozenset items => .set items
  | v => v

/-- Reads the value under a key by this kind, or the default where there is none; a value of another
kind is a fault that names the key, so it takes a key that can be written. -/
def read (kind : Kind) (c : Contents) (key default : Value) : Except Fault Value :=
  if !key.isKey then .error (.misused .notKey)
  else
    match c.get? key with
    | none => .ok default
    | some held =>
      if kind.fits held then .ok (view held)
      else if key.isWritable then .error (.otherKind key held)
      else .error (.misused .unwritable)

end Kind

end Preferences.Store

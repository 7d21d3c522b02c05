import Preferences.Calendar
import Preferences.Number.Binary64

/-! # Values

A `Value` is what a document, a setting or a store can hold: the kinds of a TOML document, nothing
at all, and sets.  Tables keep the order of their entries, and have values as keys.  `isTruthy`
tells empty and zero values from the others, and `Misuse` lists what can go wrong when a value of
the wrong kind is used. -/

namespace Preferences

/-- A value of a document or a store. -/
inductive Value where
  | null
  | bool (b : Bool)
  | int (n : Int)
  | float (x : Binary64)
  | text (s : String)
  | list (items : List Value)
  | table (entries : List (Value × Value))
  | set (items : List Value)
  | frozenset (items : List Value)
  | date (d : Date)
  | time (t : TimeOfDay)
  | datetime (t : DateTime)
  deriving Inhabited

instance : Coe String Value := ⟨Value.text⟩

/-- Why a value cannot be used where it stands. -/
inductive Misuse
  /-- A text is required. -/
  | notText
  /-- A table is required. -/
  | notTable
  /-- Something that has elements is required. -/
  | notIterable
  /-- Something that may contain the key is required. -/
  | notContainer
  /-- The value cannot be looked up under this key. -/
  | notIndexable
  /-- The value cannot be a key. -/
  | notKey
  /-- The value cannot be joined to a text. -/
  | notJoinable
  /-- The value has no initial letter. -/
  | notSliceable
  /-- The value is no type expression. -/
  | notTypeExpression
  /-- The value cannot be converted. -/
  | notConvertible
  /-- The text is no numeral. -/
  | notNumeral
  /-- The number is out of range. -/
  | outOfRange
  /-- The value holds a number with too many digits to be written. -/
  | unwritable
  deriving DecidableEq, Repr

namespace Value

/-- The name of the kind of a value. -/
def kindName : Value → String
  | null => "NoneType"
  | bool _ => "bool"
  | int _ => "int"
  | float _ => "float"
  | text _ => "str"
  | list _ => "list"
  | table _ => "dict"
  | set _ => "set"
  | frozenset _ => "frozenset"
  | date _ => "date"
  | time _ => "time"
  | datetime _ => "datetime"

/-- Whether the value counts as true: it is neither nothing, nor zero, nor empty. -/
def isTruthy : Value → Bool
  | null => false
  | bool b => b
  | int n => n != 0
  | float x => !x.isZero
  | text s => s != ""
  | list items | set items | frozenset items => !items.isEmpty
  | table entries => !entries.isEmpty
  | date _ | time _ | datetime _ => true

/-- The value itself if it counts as true, otherwise the alternative. -/
def orElse (v alternative : Value) : Value := if v.isTruthy then v else alternative

/-! ### Equality -/

mutual

/-- Decides whether two values are the same term. -/
def decEq : (a b : Value) → Decidable (a = b)
  | .null, b =>
    match b with
    | .null => isTrue rfl
    | .bool _ | .int _ | .float _ | .text _ | .list _ | .table _
    | .set _ | .frozenset _ | .date _ | .time _ | .datetime _ => isFalse nofun
  | .bool x, b =>
    match b with
    | .bool y => decidable_of_iff (x = y) (by simp)
    | .null | .int _ | .float _ | .text _ | .list _ | .table _
    | .set _ | .frozenset _ | .date _ | .time _ | .datetime _ => isFalse nofun
  | .int x, b =>
    match b with
    | .int y => decidable_of_iff (x = y) (by simp)
    | .null | .bool _ | .float _ | .text _ | .list _ | .table _
    | .set _ | .frozenset _ | .date _ | .time _ | .datetime _ => isFalse nofun
  | .float x, b =>
    match b with
    | .float y => decidable_of_iff (x = y) (by simp)
    | .null | .bool _ | .int _ | .text _ | .list _ | .table _
    | .set _ | .frozenset _ | .date _ | .time _ | .datetime _ => isFalse nofun
  | .text x, b =>
    match b with
    | .text y => decidable_of_iff (x = y) (by simp)
    | .null | .bool _ | .int _ | .float _ | .list _ | .table _
    | .set _ | .frozenset _ | .date _ | .time _ | .datetime _ => isFalse nofun
  | .date x, b =>
    match b with
    | .date y => decidable_of_iff (x = y) (by simp)
    | .null | .bool _ | .int _ | .float _ | .text _ | .list _
    | .table _ | .set _ | .frozenset _ | .time _ | .datetime _ => isFalse nofun
  | .time x, b =>
    match b with
    | .time y => decidable_of_iff (x = y) (by simp)
    | .null | .bool _ | .int _ | .float _ | .text _ | .list _
    | .table _ | .set _ | .frozenset _ | .date _ | .datetime _ => isFalse nofun
  | .datetime x, b =>
    match b with
    | .datetime y => decidable_of_iff (x = y) (by simp)
    | .null | .bool _ | .int _ | .float _ | .text _ | .list _
    | .table _ | .set _ | .frozenset _ | .date _ | .time _ => isFalse nofun
  | .list x, b =>
    match b with
    | .list y => @decidable_of_iff _ (x = y) (by simp) (decEqItems x y)
    | .null | .bool _ | .int _ | .float _ | .text _ | .table _ | .set _
    | .frozenset _ | .date _ | .time _ | .datetime _ => isFalse nofun
  | .table x, b =>
    match b with
    | .table y => @decidable_of_iff _ (x = y) (by simp) (decEqEntries x y)
    | .null | .bool _ | .int _ | .float _ | .text _ | .list _ | .set _
    | .frozenset _ | .date _ | .time _ | .datetime _ => isFalse nofun
  | .set x, b =>
    match b with
    | .set y => @decidable_of_iff _ (x = y) (by simp) (decEqItems x y)
    | .null | .bool _ | .int _ | .float _ | .text _ | .list _ | .table _
    | .frozenset _ | .date _ | .time _ | .datetime _ => isFalse nofun
  | .frozenset x, b =>
    match b with
    | .frozenset y => @decidable_of_iff _ (x = y) (by simp) (decEqItems x y)
    | .null | .bool _ | .int _ | .float _ | .text _ | .list _ | .table _
    | .set _ | .date _ | .time _ | .datetime _ => isFalse nofun

def decEqItems : (a b : List Value) → Decidable (a = b)
  | [], [] => isTrue rfl
  | [], _ :: _ => isFalse nofun
  | _ :: _, [] => isFalse nofun
  | x :: xs, y :: ys =>
    match decEq x y, decEqItems xs ys with
    | isTrue h, isTrue hs => isTrue (by rw [h, hs])
    | isFalse h, _ => isFalse (by simp [h])
    | _, isFalse hs => isFalse (by simp [hs])

def decEqEntries : (a b : List (Value × Value)) → Decidable (a = b)
  | [], [] => isTrue rfl
  | [], _ :: _ => isFalse nofun
  | _ :: _, [] => isFalse nofun
  | (k, x) :: xs, (l, y) :: ys =>
    match decEq k l, decEq x y, decEqEntries xs ys with
    | isTrue hk, isTrue h, isTrue hs => isTrue (by rw [hk, h, hs])
    | isFalse hk, _, _ => isFalse (by simp [hk])
    | _, isFalse h, _ => isFalse (by simp [h])
    | _, _, isFalse hs => isFalse (by simp [hs])

end

instance : DecidableEq Value := decEq

end Value
end Preferences

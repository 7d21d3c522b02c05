import Preferences.Number.Numeral
import Preferences.Number.Shortest
import Preferences.Text.Quoted
import Preferences.Value.Basic

/-! # Values as text

`Value.source` writes a value as it stands in source code; `Value.plain` writes it for a reader: a
text as it is, dates and times in the compact notation, and everything else as in source code.  An
integer with more digits than are read back is not to be written; `Value.isWritable` and
`requireWritable` find the values without any.  Values of every depth are written: that an
interpreter which writes a value by recursion has a limit on its depth is left out. -/

namespace Preferences.Value

open Preferences.Text

/-- The parts, separated by commas. -/
def commaJoined (parts : List String) : String := ", ".intercalate parts

mutual

/-- The value as it stands in source code. -/
def source : Value → String
  | .null => "None"
  | .bool b => if b then "True" else "False"
  | .int n => toString n
  | .float x => String.ofList x.text
  | .text s => String.ofList (quote s.toList)
  | .list items => "[" ++ commaJoined (sources items) ++ "]"
  | .table entries => "\x7b" ++ commaJoined (entrySources entries) ++ "\x7d"
  | .set items =>
    if items.isEmpty then "set()" else "\x7b" ++ commaJoined (sources items) ++ "\x7d"
  | .frozenset items =>
    if items.isEmpty then "frozenset()"
    else "frozenset(\x7b" ++ commaJoined (sources items) ++ "\x7d)"
  | .date d => "datetime.date(" ++ commaJoined d.fields ++ ")"
  | .time t => "datetime.time(" ++ commaJoined t.fields ++ ")"
  | .datetime t => "datetime.datetime(" ++ commaJoined t.fields ++ ")"

def sources : List Value → List String
  | [] => []
  | v :: rest => v.source :: sources rest

def entrySources : List (Value × Value) → List String
  | [] => []
  | (key, v) :: rest => (key.source ++ ": " ++ v.source) :: entrySources rest

end

/-- The value as text for a reader. -/
def plain : Value → String
  | .text s => s
  | .date d => d.text
  | .time t => t.text
  | .datetime t => t.text " "
  | v => v.source

/-- The value as a literal of the generated code: a text in double marks where that is possible. -/
def literal : Value → String
  | .text s => String.ofList (Text.literal s.toList)
  | v => v.source

/-! ### Values that cannot be written -/

mutual

/-- Whether no integer in the value has too many digits to be written. -/
def isWritable : Value → Bool
  | .int n => Binary64.decimalLength n.natAbs ≤ Numeral.maxDigits
  | .list items | .set items | .frozenset items => areWritable items
  | .table entries => areWritableEntries entries
  | .null | .bool _ | .float _ | .text _ | .date _ | .time _ | .datetime _ => true

def areWritable : List Value → Bool
  | [] => true
  | v :: rest => v.isWritable && areWritable rest

def areWritableEntries : List (Value × Value) → Bool
  | [] => true
  | (key, v) :: rest => key.isWritable && v.isWritable && areWritableEntries rest

end

@[simp] theorem isWritable_text (s : String) : (text s).isWritable = true := by
  simp [isWritable]

/-- Fails unless all the values can be written. -/
def requireWritable (values : List Value) : Except Misuse Unit :=
  if values.all isWritable then .ok () else .error .unwritable

@[simp] theorem plain_text (s : String) : (text s).plain = s := rfl

end Preferences.Value

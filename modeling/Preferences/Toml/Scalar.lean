import Preferences.Calendar
import Preferences.Number.Numeral
import Preferences.Value.Basic

/-! # Numbers, days and times of a TOML document

A reader takes the longest notation that the text begins with, and gives the value together with
what stands behind it, or nothing if the text begins with no such notation. -/

namespace Preferences.Toml

open Preferences.Numeral

/-- What keeps a document from being read. -/
inductive Fault
  /-- The document is not well-formed. -/
  | malformed
  /-- A whole number has too many digits. -/
  | numberTooLong
  /-- Too many arrays and tables stand within each other. -/
  | tooDeep
  deriving DecidableEq, Repr

/-! ### Numbers -/

/-- A run of digits, with single underscores between them. -/
def takeDigits (isDigit : Char → Bool) : List Char → List Char × List Char
  | [] => ([], [])
  | c :: rest =>
    if isDigit c then
      let (digits, rest) := takeDigits isDigit rest
      (c :: digits, rest)
    else if c == '_' && (rest.head?).any isDigit then takeDigits isDigit rest
    else ([], c :: rest)

/-- A run of at least one digit. -/
def readDigits? (isDigit : Char → Bool) (s : List Char) : Option (List Char × List Char) :=
  if (s.head?).any isDigit then some (takeDigits isDigit s) else none

/-- The value of a digit up to fifteen. -/
def digitOf (c : Char) : Nat :=
  if isAsciiDigit c then c.toNat - 48 else c.toLower.toNat - 87

/-- A whole number in the notation of another base. -/
def readBased? (base : Nat) (isDigit : Char → Bool) (s : List Char) :
    Option (Value × List Char) := do
  let (digits, rest) ← readDigits? isDigit s
  return (.int (digits.foldl (fun n c => base * n + digitOf c) 0 : Nat), rest)

def isHexDigit (c : Char) : Bool :=
  isAsciiDigit c || 'a' ≤ c.toLower && c.toLower ≤ 'f'

/-- A whole number in base sixteen, eight or two, by the letter behind its zero. -/
def readPrefixed? : List Char → Option (Value × List Char)
  | '0' :: 'x' :: rest => readBased? 16 isHexDigit rest
  | '0' :: 'o' :: rest => readBased? 8 (fun c => '0' ≤ c && c ≤ '7') rest
  | '0' :: 'b' :: rest => readBased? 2 (fun c => c == '0' || c == '1') rest
  | _ => none

/-- The digits before the point, where a zero stands alone. -/
def readWhole? : List Char → Option (List Char × List Char)
  | '0' :: rest => some (['0'], rest)
  | s => readDigits? isAsciiDigit s

/-- The digits behind a point. -/
def readFraction? : List Char → Option (List Char × List Char)
  | '.' :: rest => readDigits? isAsciiDigit rest
  | _ => none

/-- The exponent behind its letter. -/
def readPower? : List Char → Option (Int × List Char)
  | [] => none
  | c :: rest => do
    if c != 'e' && c != 'E' then none
    let (negative, s) := splitSign rest
    let (digits, rest) ← readDigits? isAsciiDigit s
    return (if negative then -(ofDigits digits : Int) else ofDigits digits, rest)

/-- A number in decimal notation; with a fraction or an exponent it is a floating-point number. -/
def readDecimal? (s : List Char) : Option (Except Fault Value × List Char) := do
  let (negative, s) := splitSign s
  let (whole, rest) ← readWhole? s
  let (fraction, rest) := (readFraction? rest).elim (none, rest) fun (ds, rest) => (some ds, rest)
  let (power, rest) := (readPower? rest).elim (none, rest) fun (e, rest) => (some e, rest)
  if fraction.isSome || power.isSome then
    let digits := fraction.getD []
    let x := Binary64.ofDecimal negative (ofDigits (whole ++ digits))
      (power.getD 0 - digits.length)
    return (.ok (.float x), rest)
  else if maxDigits < whole.length then return (.error .numberTooLong, rest)
  else
    let n := ofDigits whole
    return (.ok (.int (if negative then -(n : Int) else n)), rest)

/-- One of the values that are no finite numbers; what is no number at all is told apart from others
in the document by what stands behind it. -/
def readSpecial? (s : List Char) : Option (Value × List Char) :=
  let (negative, body) := splitSign s
  if "inf".toList.isPrefixOf body then some (.float (Binary64.infinite negative), body.drop 3)
  else if "nan".toList.isPrefixOf body then
    some (.float (Binary64.notANumber body.length), body.drop 3)
  else none

/-! ### Days and times -/

/-- A number of just so many digits. -/
def readFixed? (width : Nat) (s : List Char) : Option (Nat × List Char) :=
  let digits := s.take width
  if digits.length = width && digits.all isAsciiDigit then some (ofDigits digits, s.drop width)
  else none

/-- A mark that has to stand here. -/
def readMark? (mark : Char) : List Char → Option (List Char)
  | [] => none
  | c :: rest => if c == mark then some rest else none

/-- A number of two digits within limits. -/
def readBetween? (least greatest : Nat) (s : List Char) : Option (Nat × List Char) := do
  let (n, rest) ← readFixed? 2 s
  if least ≤ n && n ≤ greatest then return (n, rest) else none

def readDate? (s : List Char) : Option (Date × List Char) := do
  let (year, s) ← readFixed? 4 s
  let (month, s) ← readBetween? 1 12 (← readMark? '-' s)
  let (day, s) ← readBetween? 1 31 (← readMark? '-' s)
  return (⟨year, month, day⟩, s)

/-- The microseconds of a fraction, of which six digits count. -/
def readMicroseconds (s : List Char) : Nat × List Char :=
  match s with
  | '.' :: rest =>
    let digits := rest.takeWhile isAsciiDigit
    if digits.isEmpty then (0, s)
    else
      let kept := digits.take 6
      (ofDigits (kept ++ List.replicate (6 - kept.length) '0'), rest.drop digits.length)
  | _ => (0, s)

def readTime? (s : List Char) : Option (TimeOfDay × List Char) := do
  let (hour, s) ← readBetween? 0 23 s
  let (minute, s) ← readBetween? 0 59 (← readMark? ':' s)
  let (second, s) ← readBetween? 0 59 (← readMark? ':' s)
  let (microsecond, s) := readMicroseconds s
  return (⟨hour, minute, second, microsecond⟩, s)

/-- An offset from universal time in minutes. -/
def readOffset? : List Char → Option (Int × List Char)
  | [] => none
  | c :: rest =>
    if c == 'Z' || c == 'z' then some (0, rest)
    else if c == '+' || c == '-' then do
      let (hours, s) ← readBetween? 0 23 rest
      let (minutes, s) ← readBetween? 0 59 (← readMark? ':' s)
      let offset : Int := (60 * hours + minutes : Nat)
      return (if c == '-' then -offset else offset, s)
    else none

/-- A time behind a day, with the mark between them. -/
def readTimePart? : List Char → Option (TimeOfDay × List Char)
  | [] => none
  | c :: rest => if c == 'T' || c == 't' || c == ' ' then readTime? rest else none

/-- A day, alone or with a time and an offset. -/
def readDateTime? (s : List Char) : Option (Except Fault Value × List Char) := do
  let (date, s) ← readDate? s
  let checked (v : Value) : Except Fault Value := if date.isValid then .ok v else .error .malformed
  match readTimePart? s with
  | none => return (checked (.date date), s)
  | some (time, s) =>
    match readOffset? s with
    | none => return (checked (.datetime ⟨date, time, none⟩), s)
    | some (offset, s) => return (checked (.datetime ⟨date, time, some offset⟩), s)

/-! ### All of them -/

def readFlag? (s : List Char) : Option (Value × List Char) :=
  if "true".toList.isPrefixOf s then some (.bool true, s.drop 4)
  else if "false".toList.isPrefixOf s then some (.bool false, s.drop 5)
  else none

/-- Reads a value without parts, other than a text. -/
def readScalar (s : List Char) : Except Fault (Value × List Char) :=
  let sure (read : Value × List Char) : Except Fault Value × List Char := (.ok read.1, read.2)
  let found := (readFlag? s).map sure
    <|> readDateTime? s
    <|> (readTime? s).map (fun read => (.ok (.time read.1), read.2))
    <|> (readPrefixed? s).map sure
    <|> readDecimal? s
    <|> (readSpecial? s).map sure
  match found with
  | some (v, rest) => v.map fun v => (v, rest)
  | none => .error .malformed

end Preferences.Toml

import Preferences.Number.Binary64
import Preferences.Text.Blank
import Preferences.Text.DecimalDigit

/-! # Numerals in text

`readInt?` and `readFloat?` read a numeral that fills a text up to white space around it.  Digits of
every script count, and a single underscore may stand between two digits. -/

namespace Preferences.Numeral

open Preferences.Text

/-- The white space that may stand around a numeral. -/
def isSpace (c : Char) : Bool := c == ' ' || '\t' ≤ c && c ≤ '\r'

/-- A digit of a numeral that is written in ASCII. -/
def isAsciiDigit (c : Char) : Bool := '0' ≤ c && c ≤ '9'

/-- The number that ASCII digits write. -/
def ofDigits (digits : List Char) : Nat :=
  digits.foldl (fun n c => 10 * n + (c.toNat - 48)) 0

/-- The longest run of decimal digits that is read as an integer, or written as one. -/
def maxDigits : Nat := 4300

/-- The character as it counts in a numeral: other digits and blanks stand for the ASCII ones. -/
def toAscii? (c : Char) : Option Char :=
  if c.toNat < 127 then some c
  else if isBlank c then some ' '
  else (digitValue? c).map fun n => Char.ofNat (48 + n)

/-- The numeral in ASCII, without white space around it. -/
def normal? (s : List Char) : Option (List Char) :=
  (s.mapM toAscii?).map (trimBy isSpace)

/-- The numeral without its underscores, each of which has to stand between two digits. -/
def dropUnderscores? : (previous : Option Char) → List Char → Option (List Char)
  | _, [] => some []
  | previous, '_' :: rest =>
    match rest with
    | c :: _ =>
      if previous.any isAsciiDigit && isAsciiDigit c then dropUnderscores? (some '_') rest else none
    | [] => none
  | _, c :: rest => (dropUnderscores? (some c) rest).map (c :: ·)

/-- Whether a numeral has a minus sign, and what stands behind its sign. -/
def splitSign : List Char → Bool × List Char
  | '-' :: rest => (true, rest)
  | '+' :: rest => (false, rest)
  | s => (false, s)

/-- The integer that the text writes. -/
def readInt? (s : List Char) : Option Int := do
  let numeral ← normal? s
  let (negative, body) := splitSign numeral
  let digits ← dropUnderscores? none body
  if digits.isEmpty || !digits.all isAsciiDigit || maxDigits < digits.length then none
  else some (if negative then -(ofDigits digits : Int) else ofDigits digits)

/-- The exponent behind a number: nothing, or `e` and an integer. -/
def readExponent? : List Char → Option Int
  | [] => some 0
  | e :: rest =>
    if e == 'e' || e == 'E' then
      let (negative, digits) := splitSign rest
      if digits.isEmpty || !digits.all isAsciiDigit then none
      else some (if negative then -(ofDigits digits : Int) else ofDigits digits)
    else none

/-- The digits behind a point, if there is one, and what stands behind them. -/
def splitFraction : List Char → List Char × List Char
  | '.' :: rest => (rest.takeWhile isAsciiDigit, rest.dropWhile isAsciiDigit)
  | s => ([], s)

/-- The decimal that the text writes, without a sign. -/
def readDecimal? (negative : Bool) (s : List Char) : Option Binary64 := do
  let whole := s.takeWhile isAsciiDigit
  let (fraction, tail) := splitFraction (s.dropWhile isAsciiDigit)
  if whole.isEmpty && fraction.isEmpty then none
  else
    let e ← readExponent? tail
    some (Binary64.ofDecimal negative (ofDigits (whole ++ fraction)) (e - fraction.length))

/-- The floating-point number that the text writes. -/
def readFloat? (s : List Char) : Option Binary64 := do
  let numeral ← normal? s
  let plain ← dropUnderscores? none numeral
  let (negative, body) := splitSign plain
  let word := String.ofList (body.map Char.toLower)
  if word == "inf" || word == "infinity" then some (Binary64.infinite negative)
  else if word == "nan" then some (Binary64.notANumber 0)
  else readDecimal? negative body

end Preferences.Numeral

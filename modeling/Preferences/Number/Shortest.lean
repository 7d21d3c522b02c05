import Preferences.Number.Binary64

/-! # The shortest decimal that reads back

`Binary64.shortest` finds the decimal with the fewest digits that `Binary64.ofDecimal` reads back as
the same number, and of those the nearest one; `Binary64.text` lays it out.  Numbers from a tenth of
a thousandth up to sixteen digits before the point are written positionally, the others with an
exponent of at least two digits. -/

namespace Preferences.Binary64

/-- The quotient `numerator / denominator / 10 ^ e`, again as a quotient. -/
def unscaleDecimal (numerator denominator : Nat) (e : Int) : Nat × Nat :=
  if 0 ≤ e then (numerator, denominator * tenTo e.toNat)
  else (numerator * tenTo (-e).toNat, denominator)

/-- The place of the point before the first digit of a positive quotient: it is below
`10 ^ place` and not below `10 ^ (place - 1)`. -/
def decimalPlace (numerator denominator : Nat) : Int :=
  if denominator ≤ numerator then decimalLength (numerator / denominator)
  else
    let inverse := (denominator + numerator - 1) / numerator
    1 - (if inverse ≤ 1 then 0 else decimalLength (inverse - 1))

/-- The nearer of the two neighbours on a grid that reads back, if one of them does. -/
def onGrid? (x : Binary64) (numerator denominator : Nat) (e : Int) : Option (Nat × Int) :=
  let (n, d) := unscaleDecimal numerator denominator e
  let below := n / d
  let nearest := roundDiv n d
  let farther := if nearest = below then below + 1 else below
  [nearest, farther].findSome? fun digits =>
    if ofDecimal x.negative digits e == x then some (digits, e) else none

/-- The digits and the exponent of the shortest decimal for a finite number other than zero. -/
def shortest (x : Binary64) : Nat × Int :=
  let (n, d) := x.ratio
  let place := decimalPlace n d
  ((List.range 17).findSome? fun (count : Nat) => onGrid? x n d (place - (count + 1))).getD (n, 0)

/-- The digits of a number without the zeros at their end, and how many zeros that were. -/
def stripZeros (digits : List Char) : List Char × Nat :=
  let zeros := digits.reverse.takeWhile (· == '0')
  (digits.take (digits.length - zeros.length), zeros.length)

/-- The least exponent that is written positionally. -/
def leastPositional : Int := -4

/-- The least exponent beyond `leastPositional` that is not written positionally. -/
def leastLarge : Int := 16

/-- The digits of a positional number whose point stands behind `place` digits. -/
def positional (digits : List Char) (place : Int) : List Char :=
  if place ≤ 0 then '0' :: '.' :: (List.replicate (-place).toNat '0' ++ digits)
  else
    let whole := digits.take place.toNat
    let fraction := digits.drop place.toNat
    whole ++ List.replicate (place.toNat - whole.length) '0' ++ '.' ::
      (if fraction.isEmpty then ['0'] else fraction)

/-- A number written with an exponent. -/
def scientific (digits : List Char) (e : Int) : List Char :=
  let exponent := Nat.toDigits 10 e.natAbs
  digits.take 1 ++ (if digits.length ≤ 1 then [] else '.' :: digits.drop 1) ++
    'e' :: (if e < 0 then '-' else '+') ::
      (List.replicate (2 - exponent.length) '0' ++ exponent)

/-- The text of a magnitude that is a finite number other than zero. -/
def magnitudeText (x : Binary64) : List Char :=
  let (coefficient, e) := x.shortest
  let (digits, zeros) := stripZeros (Nat.toDigits 10 coefficient)
  let place : Int := digits.length + zeros + e
  if leastPositional ≤ place - 1 && place - 1 < leastLarge then positional digits place
  else scientific digits (place - 1)

def text (x : Binary64) : List Char :=
  if x.isNaN then "nan".toList
  else
    (if x.negative then ['-'] else []) ++
      (if x.isInfinite then "inf".toList
      else if x.isZero then "0.0".toList
      else x.magnitudeText)

end Preferences.Binary64

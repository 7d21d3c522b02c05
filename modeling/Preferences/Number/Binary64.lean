/-! # Binary floating-point numbers

A number in the binary64 format is its sign and one word of 63 bits, the exponent field above the
fraction field; so words are ordered as the magnitudes are, and rounding that carries into the
exponent needs no special case.  `ofRatio` rounds a quotient to the nearest number, ties to the even
word, and `ofDecimal` does so for a decimal; all of it is exact arithmetic on natural numbers. -/

namespace Preferences

/-- A number in the binary64 format: its sign, and a word of 63 bits. -/
structure Binary64 where
  negative : Bool
  word : Fin 0x8000000000000000
  deriving DecidableEq

namespace Binary64

def twoTo (e : Nat) : Nat := Nat.pow 2 e

def tenTo (e : Nat) : Nat := Nat.pow 10 e

/-- The word of infinity; the words above it are those that are not numbers, told apart by what is
above it. -/
def infiniteWord : Nat := 2047 * twoTo 52

/-- The number with this sign and word; words of 64 bits and more count as infinite. -/
def ofWord (negative : Bool) (word : Nat) : Binary64 :=
  ⟨negative, Fin.ofNat _ (min word infiniteWord)⟩

/-- Positive or negative infinity. -/
def infinite (negative : Bool) : Binary64 := ofWord negative infiniteWord

/-- A value that is no number, told apart from others by its payload of up to 51 bits. -/
def notANumber (payload : Nat) : Binary64 :=
  ⟨false, Fin.ofNat _ (infiniteWord + twoTo 51 + payload % twoTo 51)⟩

def isNaN (x : Binary64) : Bool := infiniteWord < x.word.val

def isInfinite (x : Binary64) : Bool := x.word.val == infiniteWord

/-- Whether this is zero, of either sign. -/
def isZero (x : Binary64) : Bool := x.word.val == 0

/-- The integer that a power of two scales to the magnitude. -/
def significand (x : Binary64) : Nat :=
  if x.word.val < twoTo 52 then x.word.val else twoTo 52 + x.word.val % twoTo 52

/-- The exponent of the power of two that scales the significand. -/
def exponent (x : Binary64) : Int :=
  max (x.word.val / twoTo 52 : Nat) 1 - 1075

/-- The magnitude of a finite number as a quotient. -/
def ratio (x : Binary64) : Nat × Nat :=
  if 0 ≤ x.exponent then (x.significand * twoTo x.exponent.toNat, 1)
  else (x.significand, twoTo (-x.exponent).toNat)

/-! ### Rounding -/

/-- The integer nearest to a quotient, ties to even. -/
def roundDiv (numerator denominator : Nat) : Nat :=
  let quotient := numerator / denominator
  let rest := numerator % denominator
  if 2 * rest < denominator then quotient
  else if denominator < 2 * rest then quotient + 1
  else quotient + quotient % 2

/-- The quotient `numerator / denominator / 2 ^ e`, again as a quotient. -/
def unscale (numerator denominator : Nat) (e : Int) : Nat × Nat :=
  if 0 ≤ e then (numerator, denominator * twoTo e.toNat)
  else (numerator * twoTo (-e).toNat, denominator)

/-- The greatest exponent of a power of two that does not exceed the positive quotient. -/
def floorLog (numerator denominator : Nat) : Int :=
  let guess : Int := numerator.log2 - denominator.log2
  let (n, d) := unscale numerator denominator guess
  if d ≤ n then guess else guess - 1

/-- The number nearest to a quotient. -/
def ofRatio (negative : Bool) (numerator denominator : Nat) : Binary64 :=
  if numerator = 0 then ofWord negative 0
  else
    let e := max (floorLog numerator denominator - 52) (-1074)
    let (n, d) := unscale numerator denominator e
    ofWord negative ((e + 1074).toNat * twoTo 52 + roundDiv n d)

/-- How many decimal digits a positive number has. -/
def decimalLength (n : Nat) : Nat := (Nat.toDigits 10 n).length

/-- The number nearest to `digits * 10 ^ e`. -/
def ofDecimal (negative : Bool) (digits : Nat) (e : Int) : Binary64 :=
  if digits = 0 then ofWord negative 0
  else if 310 < e + decimalLength digits then infinite negative
  else if e + decimalLength digits < -330 then ofWord negative 0
  else if 0 ≤ e then ofRatio negative (digits * tenTo e.toNat) 1
  else ofRatio negative digits (tenTo (-e).toNat)

/-- The number nearest to an integer, unless that is infinite. -/
def ofInt? (n : Int) : Option Binary64 :=
  let x := ofRatio (n < 0) n.natAbs 1
  if x.isInfinite then none else some x

/-- The integer part of a finite number. -/
def truncate (x : Binary64) : Int :=
  let (n, d) := x.ratio
  if x.negative then -((n / d : Nat) : Int) else (n / d : Nat)

/-! ### Comparison by value -/

/-- Whether two numbers have the same value; zeros are the same, and what is no number is the same
only as itself. -/
def same (x y : Binary64) : Bool := x == y || x.isZero && y.isZero

/-- Whether the number has exactly the value of an integer. -/
def sameInt (x : Binary64) (n : Int) : Bool :=
  !x.isNaN && !x.isInfinite && x.truncate == n && x.ratio.1 % x.ratio.2 == 0

end Binary64

end Preferences

/-! # Sets of characters given by code points

A property of characters that a standard lists is written as ranges of code points. -/

namespace Preferences.Text

/-- A set of characters: closed ranges of code points. -/
abbrev CodeRanges := List (Nat × Nat)

/-- Whether the character lies in one of the ranges. -/
def CodeRanges.has (ranges : CodeRanges) (c : Char) : Bool :=
  ranges.any fun range => range.1 ≤ c.toNat && c.toNat ≤ range.2

theorem of_codes {P : Char → Prop} {low high : Nat} {c : Char}
    (all : ∀ n ≤ high, low ≤ n → P (Char.ofNat n)) (within : low ≤ c.toNat ∧ c.toNat ≤ high) :
    P c := by
  have code := all c.toNat within.2 within.1
  rwa [Char.ofNat_toNat] at code

end Preferences.Text

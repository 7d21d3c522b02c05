import Mathlib.Tactic.SplitIfs
import Preferences.Number.Binary64

/-! # Floating-point numbers that are integers

A finite number is the product of its significand and a power of two, and only the word of the
number has this product (`word_eq_of_magnitude`).  So a number that has the value of an integer,
which is then `Binary64.integer?`, shares it with no other number but the two zeros with each other
(`same_of_integer?`). -/

namespace Preferences.Binary64

variable {x y : Binary64} {n : Int}

/-- The exponent of the power of two, as far as it is above the least one. -/
def scale (x : Binary64) : Nat := max (x.word.val / twoTo 52) 1

def integer? (x : Binary64) : Option Int :=
  if !x.isNaN && !x.isInfinite && x.ratio.1 % x.ratio.2 == 0 then some x.truncate else none

theorem sameInt_iff : x.sameInt n = true ↔ x.integer? = some n := by
  unfold sameInt integer?
  cases x.isNaN <;> cases x.isInfinite <;> simp [and_comm]

theorem twoTo_52 : twoTo 52 = 4503599627370496 := rfl

theorem twoTo_pos (e : Nat) : 0 < twoTo e := Nat.two_pow_pos e

theorem twoTo_add (d e : Nat) : twoTo (d + e) = twoTo d * twoTo e := Nat.pow_add 2 d e

/-- The significand takes 53 bits, and all of them unless the scale is the least one. -/
theorem significand_lt (x : Binary64) : x.significand < 2 * twoTo 52 := by
  unfold significand
  rw [twoTo_52]
  split_ifs <;> omega

theorem le_significand (h : 1 < x.scale) : twoTo 52 ≤ x.significand := by
  unfold scale at h
  unfold significand
  rw [twoTo_52] at *
  split_ifs <;> omega

theorem word_eq_of_fields (significands : x.significand = y.significand)
    (scales : x.scale = y.scale) : x.word = y.word := by
  apply Fin.ext
  unfold significand at significands
  unfold scale at scales
  rw [twoTo_52] at *
  split_ifs at significands <;> omega

/-- A greater scale makes a greater magnitude, whatever the significands are. -/
theorem magnitude_lt_of_scale_lt (h : x.scale < y.scale) :
    x.significand * twoTo x.scale < y.significand * twoTo y.scale := by
  have least : 1 ≤ x.scale := Nat.le_max_right _ _
  have all : twoTo 52 ≤ y.significand := le_significand (by omega)
  have power : twoTo (1 + x.scale) ≤ twoTo y.scale :=
    Nat.pow_le_pow_right (by decide) (by omega)
  calc x.significand * twoTo x.scale
      < 2 * twoTo 52 * twoTo x.scale := Nat.mul_lt_mul_of_pos_right x.significand_lt (twoTo_pos _)
    _ = twoTo 52 * twoTo (1 + x.scale) := by
        rw [twoTo_add, Nat.mul_comm 2, Nat.mul_assoc]
        rfl
    _ ≤ y.significand * twoTo y.scale := Nat.mul_le_mul all power

/-- No two words have the same magnitude. -/
theorem word_eq_of_magnitude
    (h : x.significand * twoTo x.scale = y.significand * twoTo y.scale) : x.word = y.word := by
  rcases Nat.lt_trichotomy x.scale y.scale with lt | scales | gt
  · exact absurd h (Nat.ne_of_lt (magnitude_lt_of_scale_lt lt))
  · rw [scales] at h
    exact word_eq_of_fields (Nat.eq_of_mul_eq_mul_right (twoTo_pos _) h) scales
  · exact absurd h.symm (Nat.ne_of_lt (magnitude_lt_of_scale_lt gt))

/-- A number that is an integer is a whole quotient, with its sign. -/
theorem ratio_of_integer? (h : x.integer? = some n) :
    n.natAbs * x.ratio.2 = x.ratio.1 ∧ (n ≠ 0 → x.negative = decide (n < 0)) := by
  unfold integer? at h
  split_ifs at h with finite
  have whole : x.ratio.1 % x.ratio.2 = 0 := by simp_all
  have value : n = if x.negative then -((x.ratio.1 / x.ratio.2 : Nat) : Int)
      else (x.ratio.1 / x.ratio.2 : Nat) := (Option.some.inj h).symm
  have magnitude : n.natAbs = x.ratio.1 / x.ratio.2 := by
    rw [value]
    split_ifs
    · rw [Int.natAbs_neg, Int.natAbs_natCast]
    · rw [Int.natAbs_natCast]
  refine ⟨?_, fun nonzero => ?_⟩
  · rw [magnitude, Nat.div_mul_cancel (Nat.dvd_of_mod_eq_zero whole)]
  · generalize x.ratio.1 / x.ratio.2 = q at value
    cases sign : x.negative <;> simp [sign] at value ⊢ <;> omega

theorem magnitude_of_integer? (h : x.integer? = some n) :
    n.natAbs * twoTo 1075 = x.significand * twoTo x.scale := by
  have whole := (ratio_of_integer? h).1
  have exponent : x.exponent = (x.scale : Int) - 1075 := by
    unfold Binary64.exponent scale
    omega
  unfold ratio at whole
  rw [exponent] at whole
  split_ifs at whole with large
  · have scale : x.scale = ((x.scale : Int) - 1075).toNat + 1075 := by omega
    dsimp only at whole
    rw [scale, twoTo_add, ← Nat.mul_assoc, ← whole, Nat.mul_one]
  · have bias : 1075 = (-((x.scale : Int) - 1075)).toNat + x.scale := by omega
    dsimp only at whole
    rw [← whole, Nat.mul_assoc, ← twoTo_add, ← bias]

theorem isZero_of_integer?_zero (h : x.integer? = some 0) : x.isZero = true := by
  have none := magnitude_of_integer? h
  rw [Int.natAbs_zero, Nat.zero_mul] at none
  have significand : x.significand = 0 :=
    (Nat.mul_eq_zero.mp none.symm).resolve_right (Nat.ne_of_gt (twoTo_pos _))
  unfold Binary64.significand at significand
  unfold isZero
  rw [twoTo_52] at significand
  split_ifs at significand with small
  · simpa using significand
  · omega

theorem same_of_integer? (hx : x.integer? = some n) (hy : y.integer? = some n) :
    x.same y = true := by
  unfold same
  by_cases zero : n = 0
  · subst zero
    rw [isZero_of_integer?_zero hx, isZero_of_integer?_zero hy, Bool.and_self, Bool.or_true]
  · have words := word_eq_of_magnitude
      ((magnitude_of_integer? hx).symm.trans (magnitude_of_integer? hy))
    have signs : x.negative = y.negative := by
      rw [(ratio_of_integer? hx).2 zero, (ratio_of_integer? hy).2 zero]
    have equal : x = y := by
      obtain ⟨negative, word⟩ := x
      obtain ⟨negative', word'⟩ := y
      obtain rfl : negative = negative' := signs
      obtain rfl : word = word' := words
      rfl
    rw [equal, beq_self_eq_true, Bool.true_or]

theorem integer?_of_isZero (h : x.isZero = true) : x.integer? = some 0 := by
  have word : x.word.val = 0 := by simpa [isZero] using h
  have significand : x.significand = 0 := by
    unfold Binary64.significand
    rw [word, twoTo_52]
    rfl
  have ratio : x.ratio.1 = 0 := by
    unfold Binary64.ratio
    split_ifs <;> simp [significand]
  have finite : x.isNaN = false ∧ x.isInfinite = false := by
    unfold isNaN isInfinite infiniteWord
    rw [word, twoTo_52]
    exact ⟨rfl, rfl⟩
  unfold integer? truncate
  simp [finite, ratio]

theorem integer?_eq_of_same (h : x.same y = true) : x.integer? = y.integer? := by
  unfold same at h
  rw [Bool.or_eq_true, Bool.and_eq_true, beq_iff_eq] at h
  rcases h with rfl | ⟨hx, hy⟩
  · rfl
  · rw [integer?_of_isZero hx, integer?_of_isZero hy]

/-- Numbers of which one is no integer are the same only if they are equal. -/
theorem same_iff_of_integer?_eq_none (h : x.integer? = none) : x.same y = true ↔ x = y := by
  have nonzero : x.isZero = false := by
    cases zero : x.isZero with
    | false => rfl
    | true =>
        rw [integer?_of_isZero zero] at h
        cases h
  simp [same, nonzero]

end Preferences.Binary64

import Mathlib.Algebra.Order.Field.Power
import Mathlib.Data.Int.Log
import Mathlib.Data.Rat.Floor
import Mathlib.Tactic.FieldSimp
import Mathlib.Tactic.GCongr
import Mathlib.Tactic.Linarith
import Mathlib.Tactic.NormNum
import Mathlib.Tactic.Positivity
import Mathlib.Tactic.Ring
import Preferences.Proofs.Number.ExactInteger

/-! # Rounding to the nearest number

What `ofRatio` rounds a quotient to depends on the value of the quotient only (`ofRatio_congr`).  A
quotient whose distance from a number is less than the 54th part in powers of two of that number is
rounded to it (`ofRatio_eq_of_near`): numbers have 53 bits, and below a power of two they are twice
as dense as above it. -/

namespace Preferences.Binary64

variable {x : Binary64} {n d n' d' k : Nat} {e : Int} {negative : Bool}

/-! ### Quotients -/

theorem cast_twoTo (e : Nat) : (twoTo e : ℚ) = 2 ^ (e : Int) := by
  rw [zpow_natCast]
  exact Nat.cast_pow 2 e

theorem cast_tenTo (e : Nat) : (tenTo e : ℚ) = 10 ^ (e : Int) := by
  rw [zpow_natCast]
  exact Nat.cast_pow 10 e

theorem unscale_value (n : Nat) (hd : 0 < d) (e : Int) :
    0 < (unscale n d e).2 ∧
      ((unscale n d e).1 / (unscale n d e).2 : ℚ) = n / d / 2 ^ e := by
  unfold unscale
  split_ifs with sign
  · refine ⟨Nat.mul_pos hd (twoTo_pos _), ?_⟩
    rw [Nat.cast_mul, cast_twoTo, Int.toNat_of_nonneg sign, div_mul_eq_div_div]
  · refine ⟨hd, ?_⟩
    rw [Nat.cast_mul, cast_twoTo, Int.toNat_of_nonneg (by omega), zpow_neg, mul_div_right_comm,
      ← div_eq_mul_inv]

theorem log_eq_of_bounds {b : Nat} (hb : 1 < b) {q : ℚ} (low : (b : ℚ) ^ e ≤ q)
    (high : q < (b : ℚ) ^ (e + 1)) : Int.log b q = e := by
  have positive : 0 < q := lt_of_lt_of_le (zpow_pos (by exact_mod_cast Nat.zero_lt_of_lt hb) _) low
  have least := (Int.zpow_le_iff_le_log hb positive).mp low
  have greatest := (Int.lt_zpow_iff_log_lt hb positive).mp high
  omega

theorem log2_bounds (hn : 0 < n) :
    (2 : ℚ) ^ (n.log2 : Int) ≤ n ∧ (n : ℚ) < 2 ^ ((n.log2 : Int) + 1) := by
  constructor
  · rw [zpow_natCast]
    exact_mod_cast Nat.log2_self_le (Nat.ne_of_gt hn)
  · have above : n < 2 ^ (n.log2 + 1) := (Nat.log2_lt (Nat.ne_of_gt hn)).mp (Nat.lt_succ_self _)
    exact_mod_cast above

/-- The exponent of a quotient is its logarithm. -/
theorem floorLog_eq_log (hn : 0 < n) (hd : 0 < d) : floorLog n d = Int.log 2 (n / d : ℚ) := by
  have denominator : (0 : ℚ) < d := by exact_mod_cast hd
  obtain ⟨low, high⟩ := log2_bounds hn
  obtain ⟨low', high'⟩ := log2_bounds hd
  obtain ⟨positive, value⟩ := unscale_value n hd ((n.log2 : Int) - d.log2)
  have guessed : (unscale n d ((n.log2 : Int) - d.log2)).2 ≤
      (unscale n d ((n.log2 : Int) - d.log2)).1 ↔
        (2 : ℚ) ^ ((n.log2 : Int) - d.log2) ≤ n / d := by
    have power : (0 : ℚ) < 2 ^ ((n.log2 : Int) - d.log2) := by positivity
    rw [← one_le_div power, ← value, one_le_div (by exact_mod_cast positive), Nat.cast_le]
  have above : (n / d : ℚ) < 2 ^ ((n.log2 : Int) - d.log2 + 1) := by
    rw [div_lt_iff₀ denominator]
    calc (n : ℚ) < 2 ^ ((n.log2 : Int) + 1) := high
      _ = 2 ^ ((n.log2 : Int) - d.log2 + 1) * 2 ^ (d.log2 : Int) := by
        rw [← zpow_add₀ (by norm_num)]
        congr 1
        ring
      _ ≤ 2 ^ ((n.log2 : Int) - d.log2 + 1) * d := by gcongr
  have below : (2 : ℚ) ^ ((n.log2 : Int) - d.log2 - 1) ≤ n / d := by
    rw [le_div_iff₀ denominator]
    calc (2 : ℚ) ^ ((n.log2 : Int) - d.log2 - 1) * d
        ≤ 2 ^ ((n.log2 : Int) - d.log2 - 1) * 2 ^ ((d.log2 : Int) + 1) := by gcongr
      _ = 2 ^ (n.log2 : Int) := by
        rw [← zpow_add₀ (by norm_num)]
        congr 1
        ring
      _ ≤ n := low
  unfold floorLog
  dsimp only
  split_ifs with fits
  · exact (log_eq_of_bounds (by decide) (guessed.mp fits) above).symm
  · refine (log_eq_of_bounds (by decide) below ?_).symm
    rw [Int.sub_add_cancel]
    exact lt_of_not_ge fun enough => fits (guessed.mpr enough)

/-! ### The nearest integer -/

theorem roundDiv_mul (n d : Nat) {c : Nat} (hc : 0 < c) :
    roundDiv (n * c) (d * c) = roundDiv n d := by
  have double : ∀ m, 2 * (m * c) = 2 * m * c := fun m => (Nat.mul_assoc 2 m c).symm
  unfold roundDiv
  simp only [Nat.mul_div_mul_right n d hc, Nat.mul_mod_mul_right, double, Nat.mul_lt_mul_right hc]

theorem roundDiv_congr (hd : 0 < d) (hd' : 0 < d') (same : (n / d : ℚ) = n' / d') :
    roundDiv n d = roundDiv n' d' := by
  have cross : n * d' = n' * d := by
    rw [div_eq_div_iff (by positivity) (by positivity)] at same
    exact_mod_cast same
  rw [← roundDiv_mul n d hd', cross, Nat.mul_comm d, roundDiv_mul n' d' hd]

theorem abs_sub_roundDiv_le (n : Nat) (hd : 0 < d) : |(n / d : ℚ) - roundDiv n d| ≤ 1 / 2 := by
  have denominator : (0 : ℚ) < d := by exact_mod_cast hd
  have division : (n : ℚ) = d * (n / d : Nat) + (n % d : Nat) := by
    exact_mod_cast (Nat.div_add_mod n d).symm
  have value : (n / d : ℚ) = (n / d : Nat) + (n % d : Nat) / d := by
    rw [division, add_div, mul_div_cancel_left₀ _ (ne_of_gt denominator)]
  have rest : (n % d : Nat) / (d : ℚ) < 1 := by
    rw [div_lt_one denominator]
    exact_mod_cast Nat.mod_lt n hd
  have positive : (0 : ℚ) ≤ (n % d : Nat) / d := by positivity
  have compare : ∀ a : Nat, 2 * a ≤ d → ((a : Nat) / d : ℚ) ≤ 1 / 2 := by
    intro a small
    rw [div_le_div_iff₀ denominator (by norm_num)]
    have : (2 * a : ℚ) ≤ d := by exact_mod_cast small
    linarith
  have large : d ≤ 2 * (n % d) → (1 / 2 : ℚ) ≤ (n % d : Nat) / d := by
    intro large
    rw [div_le_div_iff₀ (by norm_num) denominator]
    have : (d : ℚ) ≤ 2 * (n % d : Nat) := by exact_mod_cast large
    linarith
  rw [abs_le, value]
  unfold roundDiv
  dsimp only
  split_ifs with low high
  · have := compare _ (Nat.le_of_lt low)
    constructor <;> linarith
  · have := large (Nat.le_of_lt high)
    push_cast
    constructor <;> linarith
  · have half := compare (n % d) (by omega)
    have half' := large (by omega)
    rcases Nat.mod_two_eq_zero_or_one (n / d) with even | odd
    · rw [even, Nat.add_zero]
      constructor <;> linarith
    · rw [odd]
      push_cast
      constructor <;> linarith

/-- An integer that is less than half from a quotient is the nearest one. -/
theorem roundDiv_eq_of_near (hd : 0 < d) (near : |(n / d : ℚ) - k| < 1 / 2) :
    roundDiv n d = k := by
  have within := abs_sub_roundDiv_le n hd
  have close : |((roundDiv n d : Int) - k : ℚ)| < 1 := by
    rw [abs_lt] at near ⊢
    rw [abs_le] at within
    push_cast
    constructor <;> linarith
  have gap : |(roundDiv n d : Int) - k| < 1 := by exact_mod_cast close
  rw [Int.abs_lt_one_iff] at gap
  omega

/-! ### Quotients with one value -/

theorem ofRatio_eq_ofWord (negative : Bool) (hn : 0 < n) (hd : 0 < d)
    (exponent : max (Int.log 2 (n / d : ℚ) - 52) (-1074) = e) :
    ofRatio negative n d = ofWord negative
      ((e + 1074).toNat * twoTo 52 + roundDiv (unscale n d e).1 (unscale n d e).2) := by
  rw [ofRatio, if_neg (Nat.ne_of_gt hn), floorLog_eq_log hn hd, exponent]

theorem ofRatio_congr (negative : Bool) (hn : 0 < n) (hd : 0 < d) (hn' : 0 < n') (hd' : 0 < d')
    (same : (n / d : ℚ) = n' / d') : ofRatio negative n d = ofRatio negative n' d' := by
  obtain ⟨positive, value⟩ := unscale_value n hd (max (Int.log 2 (n' / d' : ℚ) - 52) (-1074))
  obtain ⟨positive', value'⟩ := unscale_value n' hd' (max (Int.log 2 (n' / d' : ℚ) - 52) (-1074))
  rw [ofRatio_eq_ofWord negative hn hd (by rw [same]),
    ofRatio_eq_ofWord negative hn' hd' rfl,
    roundDiv_congr positive positive' (by rw [value, value', same])]

/-! ### Quotients close to a number -/

def magnitude (x : Binary64) : ℚ := x.significand * 2 ^ x.exponent

theorem ratio_value (x : Binary64) :
    0 < x.ratio.2 ∧ (x.ratio.1 / x.ratio.2 : ℚ) = x.magnitude := by
  unfold ratio magnitude
  split_ifs with sign
  · refine ⟨Nat.one_pos, ?_⟩
    rw [Nat.cast_mul, cast_twoTo, Int.toNat_of_nonneg sign, Nat.cast_one, div_one]
  · refine ⟨twoTo_pos _, ?_⟩
    rw [cast_twoTo, Int.toNat_of_nonneg (by omega), zpow_neg, div_inv_eq_mul]

theorem neg_le_exponent (x : Binary64) : -1074 ≤ x.exponent := by
  unfold exponent
  omega

theorem word_eq (x : Binary64) :
    x.word.val = (x.exponent + 1074).toNat * twoTo 52 + x.significand := by
  unfold exponent significand
  rw [twoTo_52]
  split_ifs <;> omega

/-- The significand has all its bits unless the exponent is the least one. -/
theorem le_significand_of_exponent (h : -1074 < x.exponent) : twoTo 52 ≤ x.significand := by
  refine le_significand ?_
  unfold exponent at h
  unfold scale
  omega

theorem ofWord_word (finite : x.word.val ≤ infiniteWord) : ofWord x.negative x.word.val = x := by
  obtain ⟨negative, word⟩ := x
  unfold ofWord
  rw [Nat.min_eq_left finite]
  exact congrArg _ (Fin.ofNat_val_eq_self word)

/-- A quotient in units of its exponent is rounded to the integer that is less than half away. -/
theorem ofRatio_eq_of_units (negative : Bool) (hn : 0 < n) (hd : 0 < d)
    (exponent : max (Int.log 2 (n / d : ℚ) - 52) (-1074) = e)
    (near : |(n / d / 2 ^ e : ℚ) - k| < 1 / 2) :
    ofRatio negative n d = ofWord negative ((e + 1074).toNat * twoTo 52 + k) := by
  obtain ⟨positive, value⟩ := unscale_value n hd e
  rw [ofRatio_eq_ofWord negative hn hd exponent,
    roundDiv_eq_of_near positive (by rw [value]; exact near)]

theorem log_mul_zpow {t : ℚ} {i : Int} (low : 2 ^ i ≤ t) (high : t < 2 ^ (i + 1)) :
    Int.log 2 (t * 2 ^ e) = i + e := by
  have power : (0 : ℚ) < 2 ^ e := by positivity
  refine log_eq_of_bounds (by decide) ?_ ?_
  · rw [Nat.cast_ofNat, zpow_add₀ (by norm_num)]
    exact mul_le_mul_of_nonneg_right low (le_of_lt power)
  · rw [Nat.cast_ofNat, add_right_comm, zpow_add₀ (by norm_num)]
    exact mul_lt_mul_of_pos_right high power

/-! ### Close to a number -/

section close
variable {t : ℚ}

/-- From the first bit of a number on, a quotient has the exponent of the number. -/
theorem exponent_of_same (unit : (n / d : ℚ) = t * 2 ^ x.exponent) (low : 4503599627370496 ≤ t)
    (high : t < 9007199254740992) :
    max (Int.log 2 (n / d : ℚ) - 52) (-1074) = x.exponent := by
  have least := x.neg_le_exponent
  rw [unit, log_mul_zpow (i := 52) (by norm_num; exact low) (by norm_num; exact high)]
  omega

/-- No quotient has an exponent below the least one. -/
theorem exponent_of_subnormal (unit : (n / d : ℚ) = t * 2 ^ x.exponent) (positive : 0 < (n / d : ℚ))
    (high : t < 4503599627370496) (subnormal : x.exponent = -1074) :
    max (Int.log 2 (n / d : ℚ) - 52) (-1074) = x.exponent := by
  have power : (0 : ℚ) < 2 ^ x.exponent := by positivity
  have small : Int.log 2 (n / d : ℚ) < 52 + x.exponent := by
    refine (Int.lt_zpow_iff_log_lt (by decide) positive).mp ?_
    rw [unit, Nat.cast_ofNat, zpow_add₀ (by norm_num)]
    exact mul_lt_mul_of_pos_right (by norm_num; exact high) power
  omega

/-- A quotient with the exponent of a number that is less than half a unit away. -/
theorem ofRatio_eq_of_exponent (finite : x.word.val ≤ infiniteWord) (hn : 0 < n) (hd : 0 < d)
    (unit : (n / d : ℚ) = t * 2 ^ x.exponent) (half : |t - x.significand| < 1 / 2)
    (exponent : max (Int.log 2 (n / d : ℚ) - 52) (-1074) = x.exponent) :
    ofRatio x.negative n d = x := by
  have power : (0 : ℚ) < 2 ^ x.exponent := by positivity
  have near : |(n / d / 2 ^ x.exponent : ℚ) - x.significand| < 1 / 2 := by
    rw [unit, mul_div_cancel_right₀ _ (ne_of_gt power)]
    exact half
  rw [ofRatio_eq_of_units x.negative hn hd exponent near, ← word_eq, ofWord_word finite]

/-- A quotient below a power of two, where the units are half as large. -/
theorem ofRatio_eq_of_below (finite : x.word.val ≤ infiniteWord) (hn : 0 < n) (hd : 0 < d)
    (unit : (n / d : ℚ) = t * 2 ^ x.exponent) (normal : -1074 < x.exponent)
    (first : x.significand = 4503599627370496) (below : t < 4503599627370496)
    (quarter : |t - 4503599627370496| < 1 / 4) : ofRatio x.negative n d = x := by
  have power : (0 : ℚ) < 2 ^ x.exponent := by positivity
  obtain ⟨low, -⟩ := abs_lt.mp quarter
  have exponent : max (Int.log 2 (n / d : ℚ) - 52) (-1074) = x.exponent - 1 := by
    rw [unit, log_mul_zpow (i := 51) (by norm_num; linarith) (by norm_num; exact below)]
    omega
  have near : |(n / d / 2 ^ (x.exponent - 1) : ℚ) - (9007199254740992 : Nat)| < 1 / 2 := by
    rw [unit, zpow_sub₀ (by norm_num), zpow_one, div_div_eq_mul_div, mul_right_comm,
      mul_div_cancel_right₀ _ (ne_of_gt power), Nat.cast_ofNat]
    rw [abs_lt] at quarter ⊢
    constructor <;> linarith
  have word : (x.exponent - 1 + 1074).toNat * twoTo 52 + 9007199254740992 = x.word.val := by
    rw [word_eq, first, twoTo_52]
    omega
  rw [ofRatio_eq_of_units x.negative hn hd exponent near, word, ofWord_word finite]

end close

/-- **What is close to a number is rounded to it.**  Close is what differs from the number by less
than the number divided by `2 ^ 54`. -/
theorem ofRatio_eq_of_near (finite : x.word.val ≤ infiniteWord) (hd : 0 < d)
    (near : |(n / d : ℚ) - x.magnitude| * 2 ^ 54 < x.magnitude) :
    ofRatio x.negative n d = x := by
  have power : (0 : ℚ) < 2 ^ x.exponent := by positivity
  have bits : (x.significand : ℚ) ≤ 9007199254740991 := by
    have bound := x.significand_lt
    rw [twoTo_52] at bound
    exact_mod_cast Nat.le_of_lt_succ bound
  -- All in units of the last bit of the number.
  obtain ⟨t, unit⟩ : ∃ t : ℚ, (n / d : ℚ) = t * 2 ^ x.exponent :=
    ⟨n / d / 2 ^ x.exponent, (div_mul_cancel₀ _ (ne_of_gt power)).symm⟩
  have close : |t - x.significand| * 18014398509481984 < x.significand := by
    rw [unit, magnitude, ← sub_mul, abs_mul, abs_of_pos power, mul_right_comm] at near
    have := lt_of_mul_lt_mul_right near (le_of_lt power)
    norm_num at this
    exact this
  have one : (1 : ℚ) ≤ x.significand := by
    have positive : (0 : ℚ) < x.significand := lt_of_le_of_lt (by positivity) close
    exact_mod_cast positive
  have half : |t - x.significand| < 1 / 2 := by linarith
  obtain ⟨above, below⟩ := abs_lt.mp half
  have positive : (0 : ℚ) < n / d := by
    rw [unit]
    exact mul_pos (by linarith) power
  have hn : 0 < n := by
    exact_mod_cast (div_pos_iff_of_pos_right (by exact_mod_cast hd)).mp positive
  rcases le_or_gt 4503599627370496 t with same | lower
  · exact ofRatio_eq_of_exponent finite hn hd unit half (exponent_of_same unit same (by linarith))
  rcases Int.lt_or_eq_of_le x.neg_le_exponent with normal | subnormal
  · -- Only below a power of two a close quotient has another exponent than the number, one less.
    have first : x.significand = 4503599627370496 := by
      have full := le_significand_of_exponent normal
      rw [twoTo_52] at full
      have bound : (x.significand : ℚ) < (4503599627370497 : Nat) := by
        rw [Nat.cast_ofNat]
        linarith
      have := Nat.cast_lt.mp bound
      omega
    rw [first, Nat.cast_ofNat] at close
    exact ofRatio_eq_of_below finite hn hd unit normal first lower (by linarith)
  · exact ofRatio_eq_of_exponent finite hn hd unit half
      (exponent_of_subnormal unit positive lower subnormal.symm)

end Preferences.Binary64

import Preferences.Number.Shortest
import Preferences.Proofs.Number.Rounding

/-! # Decimals that read back

What `ofDecimal` reads a decimal as depends on the value of the decimal only, so a zero at the end
of the digits may as well be in the exponent (`ofDecimal_mul_tenTo`), and a decimal that is close to
a number is read as that number (`ofDecimal_eq_of_near`).  With seventeen digits the decimal nearest
to a number is close enough, so `shortest` finds one that is read back (`ofDecimal_shortest`). -/

namespace Preferences.Binary64

variable {x : Binary64} {n d a b : Nat} {e : Int} {negative : Bool}

/-! ### Places -/

theorem unscaleDecimal_value (n : Nat) (hd : 0 < d) (e : Int) :
    0 < (unscaleDecimal n d e).2 ∧
      ((unscaleDecimal n d e).1 / (unscaleDecimal n d e).2 : ℚ) = n / d / 10 ^ e := by
  unfold unscaleDecimal
  split_ifs with sign
  · refine ⟨Nat.mul_pos hd (Nat.pow_pos (by decide)), ?_⟩
    rw [Nat.cast_mul, cast_tenTo, Int.toNat_of_nonneg sign, div_mul_eq_div_div]
  · refine ⟨hd, ?_⟩
    rw [Nat.cast_mul, cast_tenTo, Int.toNat_of_nonneg (by omega), zpow_neg, mul_div_right_comm,
      ← div_eq_mul_inv]

theorem decimalLength_pos (n : Nat) : 0 < decimalLength n := Nat.length_toDigits_pos

theorem lt_ten_pow_decimalLength (n : Nat) : n < 10 ^ decimalLength n :=
  (Nat.length_toDigits_le_iff (by decide) (decimalLength_pos n)).mp (Nat.le_refl _)

theorem ten_pow_le_of_pos (hn : 0 < n) : 10 ^ (decimalLength n - 1) ≤ n := by
  rcases Nat.eq_zero_or_pos (decimalLength n - 1) with one | more
  · rw [one]
    exact hn
  · by_contra less
    have := (Nat.length_toDigits_le_iff (by decide) more).mpr (Nat.lt_of_not_le less)
    unfold decimalLength at this more
    omega

theorem decimalLength_bounds (hn : 0 < n) :
    (10 : ℚ) ^ ((decimalLength n : Int) - 1) ≤ n ∧ (n : ℚ) < 10 ^ (decimalLength n : Int) := by
  have low := ten_pow_le_of_pos hn
  have high := lt_ten_pow_decimalLength n
  have one : ((decimalLength n : Int) - 1) = ((decimalLength n - 1 : Nat) : Int) := by
    have := decimalLength_pos n
    omega
  rw [one, zpow_natCast, zpow_natCast]
  exact ⟨by exact_mod_cast low, by exact_mod_cast high⟩

/-- The length of the whole part tells the logarithm of a quotient that is not below one. -/
theorem log_of_whole (hd : 0 < d) (order : d ≤ n) :
    Int.log 10 (n / d : ℚ) = (decimalLength (n / d) : Int) - 1 := by
  have denominator : (0 : ℚ) < d := by exact_mod_cast hd
  obtain ⟨low, -⟩ := decimalLength_bounds (Nat.div_pos order hd)
  have high : n < 10 ^ decimalLength (n / d) * d := by
    rw [← Nat.div_lt_iff_lt_mul hd]
    exact lt_ten_pow_decimalLength _
  refine log_eq_of_bounds (by decide) ?_ ?_
  · rw [le_div_iff₀ denominator]
    exact (mul_le_mul_of_nonneg_right low (le_of_lt denominator)).trans
      (by exact_mod_cast Nat.div_mul_le_self n d)
  · rw [Int.sub_add_cancel, zpow_natCast, div_lt_iff₀ denominator]
    exact_mod_cast high

/-- For a quotient below one it is told by a number below the inverse, but not by one or more. -/
theorem log_of_inverse {inverse : Nat} (positive : 0 < inverse)
    (below : inverse * n < d) (above : d ≤ (inverse + 1) * n) :
    Int.log 10 (n / d : ℚ) = -(decimalLength inverse : Int) := by
  have denominator : (0 : ℚ) < d := by exact_mod_cast Nat.zero_lt_of_lt below
  have low := ten_pow_le_of_pos positive
  have high := lt_ten_pow_decimalLength inverse
  have length := decimalLength_pos inverse
  refine log_eq_of_bounds (by decide) ?_ ?_
  · have : d ≤ 10 ^ decimalLength inverse * n := above.trans (Nat.mul_le_mul_right n high)
    rw [Nat.cast_ofNat, zpow_neg, zpow_natCast, le_div_iff₀ denominator,
      inv_mul_le_iff₀ (by positivity)]
    exact_mod_cast this
  · have : 10 ^ (decimalLength inverse - 1) * n < d :=
      (Nat.mul_le_mul_right n low).trans_lt below
    have exponent : -(decimalLength inverse : Int) + 1 =
        -((decimalLength inverse - 1 : Nat) : Int) := by omega
    rw [exponent, Nat.cast_ofNat, zpow_neg, zpow_natCast, div_lt_iff₀ denominator,
      lt_inv_mul_iff₀ (by positivity)]
    exact_mod_cast this

/-- The place of the point is one more than the logarithm. -/
theorem decimalPlace_eq_log (hn : 0 < n) (hd : 0 < d) :
    decimalPlace n d = Int.log 10 (n / d : ℚ) + 1 := by
  unfold decimalPlace
  split_ifs with order
  · rw [log_of_whole hd order, Int.sub_add_cancel]
  · obtain ⟨inverse, eq, positive⟩ : ∃ m, (d + n - 1) / n = m + 1 ∧ 0 < m := by
      have two : 2 ≤ (d + n - 1) / n := by
        rw [Nat.le_div_iff_mul_le hn]
        omega
      exact ⟨(d + n - 1) / n - 1, by omega, by omega⟩
    have below : inverse * n < d := by
      have := Nat.div_mul_le_self (d + n - 1) n
      rw [eq, Nat.add_mul] at this
      omega
    have above : d ≤ (inverse + 1) * n := by
      have := Nat.lt_div_mul_add (a := d + n - 1) hn
      rw [eq] at this
      omega
    rw [log_of_inverse positive below above, eq]
    dsimp only
    rw [if_neg (by omega), Nat.add_sub_cancel]
    omega

/-! ### Reading a decimal -/

theorem ofDecimal_eq_ofRatio (negative : Bool) (hn : 0 < n) (low : -330 ≤ e + decimalLength n)
    (high : e + decimalLength n ≤ 310) (ha : 0 < a) (hb : 0 < b)
    (value : (a / b : ℚ) = n * 10 ^ e) : ofDecimal negative n e = ofRatio negative a b := by
  rw [ofDecimal, if_neg (Nat.ne_of_gt hn), if_neg (by omega), if_neg (by omega)]
  split_ifs with sign
  · refine ofRatio_congr negative (Nat.mul_pos hn (Nat.pow_pos (by decide))) Nat.one_pos ha hb ?_
    rw [value, Nat.cast_mul, cast_tenTo, Int.toNat_of_nonneg sign, Nat.cast_one, div_one]
  · refine ofRatio_congr negative hn (Nat.pow_pos (by decide)) ha hb ?_
    rw [value, cast_tenTo, Int.toNat_of_nonneg (by omega), zpow_neg, div_inv_eq_mul]

theorem exists_quotient (hn : 0 < n) (e : Int) :
    ∃ a b : Nat, 0 < a ∧ 0 < b ∧ (a / b : ℚ) = n * 10 ^ e := by
  obtain ⟨positive, value⟩ := unscaleDecimal_value n Nat.one_pos (-e)
  rw [zpow_neg, div_inv_eq_mul, Nat.cast_one, div_one] at value
  refine ⟨_, _, ?_, positive, value⟩
  have quotient : (0 : ℚ) < n * 10 ^ e := by positivity
  rw [← value] at quotient
  exact_mod_cast (div_pos_iff_of_pos_right (by exact_mod_cast positive)).mp quotient

theorem tenTo_succ (k : Nat) : tenTo (k + 1) = 10 * tenTo k := Nat.pow_succ'

theorem toDigits_mul_ten (hn : 0 < n) : Nat.toDigits 10 (10 * n) = Nat.toDigits 10 n ++ ['0'] :=
  (Nat.toDigits_append_toDigits (b := 10) (d := 0) (by decide) hn (by decide)).symm

theorem decimalLength_mul_tenTo (hn : 0 < n) (k : Nat) :
    decimalLength (n * tenTo k) = decimalLength n + k := by
  induction k with
  | zero => exact congrArg decimalLength (Nat.mul_one n)
  | succ k ih =>
      have step : n * tenTo (k + 1) = 10 * (n * tenTo k) := by
        rw [tenTo_succ]
        ring
      have positive : 0 < n * tenTo k := Nat.mul_pos hn (Nat.pow_pos (by decide))
      rw [step, decimalLength, toDigits_mul_ten positive, List.length_append]
      exact congrArg (· + 1) ih

/-- Zeros at the end of the digits may be in the exponent. -/
theorem ofDecimal_mul_tenTo (negative : Bool) (n k : Nat) (e : Int) :
    ofDecimal negative (n * tenTo k) e = ofDecimal negative n (e + k) := by
  rcases Nat.eq_zero_or_pos n with rfl | hn
  · rw [Nat.zero_mul, ofDecimal, if_pos rfl, ofDecimal, if_pos rfl]
  have positive : 0 < n * tenTo k := Nat.mul_pos hn (Nat.pow_pos (by decide))
  have length := decimalLength_mul_tenTo hn k
  by_cases large : 310 < e + decimalLength (n * tenTo k)
  · rw [ofDecimal, if_neg (Nat.ne_of_gt positive), if_pos large, ofDecimal,
      if_neg (Nat.ne_of_gt hn), if_pos (by omega)]
  by_cases small : e + decimalLength (n * tenTo k) < -330
  · rw [ofDecimal, if_neg (Nat.ne_of_gt positive), if_neg large, if_pos small, ofDecimal,
      if_neg (Nat.ne_of_gt hn), if_neg (by omega), if_pos (by omega)]
  obtain ⟨a, b, ha, hb, value⟩ := exists_quotient hn (e + k)
  rw [ofDecimal_eq_ofRatio negative hn (by omega) (by omega) ha hb value]
  refine ofDecimal_eq_ofRatio negative positive (by omega) (by omega) ha hb ?_
  rw [value, Nat.cast_mul, cast_tenTo, mul_assoc, ← zpow_add₀ (by norm_num), Int.add_comm]

/-! ### Decimals close to a number -/

theorem magnitude_bounds (finite : x.word.val < infiniteWord) (nonzero : x.word.val ≠ 0) :
    (2 : ℚ) ^ (-1074 : Int) ≤ x.magnitude ∧ x.magnitude < 2 ^ (1024 : Int) := by
  have least := x.neg_le_exponent
  have greatest : x.exponent ≤ 971 := by
    unfold infiniteWord at finite
    unfold exponent
    rw [twoTo_52] at *
    omega
  have positive : (1 : ℚ) ≤ x.significand := by
    have : 0 < x.significand := by
      unfold significand
      rw [twoTo_52]
      split_ifs <;> omega
    exact_mod_cast this
  have bits : (x.significand : ℚ) < 2 ^ (53 : Int) := by
    have bound := x.significand_lt
    rw [twoTo_52] at bound
    norm_num
    exact_mod_cast bound
  constructor
  · calc (2 : ℚ) ^ (-1074 : Int) ≤ 2 ^ x.exponent := zpow_le_zpow_right₀ (by norm_num) least
      _ ≤ x.significand * 2 ^ x.exponent := le_mul_of_one_le_left (by positivity) positive
  · calc x.magnitude < 2 ^ (53 : Int) * 2 ^ x.exponent :=
          mul_lt_mul_of_pos_right bits (by positivity)
      _ = 2 ^ (53 + x.exponent) := (zpow_add₀ (by norm_num) _ _).symm
      _ ≤ 2 ^ (1024 : Int) := zpow_le_zpow_right₀ (by norm_num) (by omega)

theorem twice_two_pow_lt : (2 : ℚ) * 2 ^ (1024 : Int) < 10 ^ (309 : Int) := by
  have whole : 2 * 2 ^ 1024 < 10 ^ 309 := by decide +kernel
  exact_mod_cast whole

theorem ten_pow_lt_half : (10 : ℚ) ^ (-330 : Int) < 2 ^ (-1074 : Int) / 2 := by
  have whole : 2 ^ 1074 * 2 < 10 ^ 330 := by decide +kernel
  rw [zpow_neg, zpow_neg, ← one_div, ← one_div, div_div,
    one_div_lt_one_div (by positivity) (by positivity)]
  exact_mod_cast whole

/-- What has so many digits that it is not divided is beyond all finite numbers. -/
theorem two_pow_lt_of_length (hn : 0 < n) (large : 310 < e + decimalLength n) :
    (2 : ℚ) * 2 ^ (1024 : Int) < n * 10 ^ e := by
  calc (2 : ℚ) * 2 ^ (1024 : Int) < 10 ^ (309 : Int) := twice_two_pow_lt
    _ ≤ 10 ^ ((decimalLength n : Int) - 1 + e) := zpow_le_zpow_right₀ (by norm_num) (by omega)
    _ = 10 ^ ((decimalLength n : Int) - 1) * 10 ^ e := zpow_add₀ (by norm_num) _ _
    _ ≤ n * 10 ^ e := mul_le_mul_of_nonneg_right (decimalLength_bounds hn).1 (by positivity)

theorem lt_half_of_length (hn : 0 < n) (small : e + decimalLength n < -330) :
    (n * 10 ^ e : ℚ) < 2 ^ (-1074 : Int) / 2 := by
  calc (n * 10 ^ e : ℚ) ≤ 10 ^ (decimalLength n : Int) * 10 ^ e :=
        mul_le_mul_of_nonneg_right (le_of_lt (decimalLength_bounds hn).2) (by positivity)
    _ = 10 ^ (decimalLength n + e) := (zpow_add₀ (by norm_num) _ _).symm
    _ ≤ 10 ^ (-330 : Int) := zpow_le_zpow_right₀ (by norm_num) (by omega)
    _ < 2 ^ (-1074 : Int) / 2 := ten_pow_lt_half

/-- **Decimals close to a number are read as the number.** -/
theorem ofDecimal_eq_of_near (finite : x.word.val < infiniteWord) (nonzero : x.word.val ≠ 0)
    (near : |(n * 10 ^ e : ℚ) - x.magnitude| * 2 ^ 54 < x.magnitude) :
    ofDecimal x.negative n e = x := by
  obtain ⟨least, greatest⟩ := magnitude_bounds finite nonzero
  have positive : (0 : ℚ) < x.magnitude := lt_of_lt_of_le (by positivity) least
  have within : |(n * 10 ^ e : ℚ) - x.magnitude| < x.magnitude / 2 := by
    have := abs_nonneg (n * 10 ^ e - x.magnitude : ℚ)
    linarith
  obtain ⟨above, below⟩ := abs_lt.mp within
  have hn : 0 < n := by
    by_contra none
    rw [Nat.eq_zero_of_not_pos none, Nat.cast_zero, zero_mul] at above
    linarith
  have fits : e + decimalLength n ≤ 310 := by
    by_contra large
    have bounded : (n * 10 ^ e : ℚ) < 2 * 2 ^ (1024 : Int) := by
      calc (n * 10 ^ e : ℚ) < 2 * x.magnitude := by linarith
        _ < 2 * 2 ^ (1024 : Int) := mul_lt_mul_of_pos_left greatest (by norm_num)
    exact lt_asymm bounded (two_pow_lt_of_length hn (Int.not_le.mp large))
  have known : -330 ≤ e + decimalLength n := by
    by_contra small
    have := lt_half_of_length hn (Int.not_le.mp small)
    linarith
  obtain ⟨a, b, ha, hb, value⟩ := exists_quotient hn e
  rw [ofDecimal_eq_ofRatio x.negative hn known fits ha hb value]
  exact ofRatio_eq_of_near (Nat.le_of_lt finite) hb (by rw [value]; exact near)

/-! ### The shortest one -/

section shortest
variable {digits : Nat} {i : Int}

theorem onGrid?_eq_some (found : onGrid? x n d e = some (digits, i)) :
    ofDecimal x.negative digits i = x := by
  obtain ⟨candidate, -, picked⟩ := List.exists_of_findSome?_eq_some found
  split_ifs at picked with back
  obtain ⟨rfl, rfl⟩ := Prod.mk.inj (Option.some.inj picked)
  exact beq_iff_eq.mp back

theorem onGrid?_isSome (back : ofDecimal x.negative
      (roundDiv (unscaleDecimal n d e).1 (unscaleDecimal n d e).2) e = x) :
    (onGrid? x n d e).isSome = true := by
  unfold onGrid?
  dsimp only
  rw [List.findSome?_cons, if_pos (beq_iff_eq.mpr back)]
  rfl

/-- Seventeen digits are enough. -/
theorem onGrid?_seventeen (finite : x.word.val < infiniteWord) (nonzero : x.word.val ≠ 0)
    (hd : 0 < d) (value : (n / d : ℚ) = x.magnitude)
    (place : e + 17 = Int.log 10 x.magnitude + 1) : (onGrid? x n d e).isSome = true := by
  have positive : (0 : ℚ) < x.magnitude :=
    lt_of_lt_of_le (by positivity) (magnitude_bounds finite nonzero).1
  have power : (0 : ℚ) < 10 ^ e := by positivity
  obtain ⟨positive', scaled⟩ := unscaleDecimal_value n hd e
  have half := abs_sub_roundDiv_le (unscaleDecimal n d e).1 positive'
  refine onGrid?_isSome (ofDecimal_eq_of_near finite nonzero ?_)
  generalize roundDiv (unscaleDecimal n d e).1 (unscaleDecimal n d e).2 = digits at half
  have leading : (10 : ℚ) ^ e * 10000000000000000 ≤ x.magnitude := by
    have log := Int.zpow_log_le_self (b := 10) (by decide) positive
    have exponent : Int.log 10 x.magnitude = e + 16 := by omega
    rw [exponent, Nat.cast_ofNat, zpow_add₀ (by norm_num)] at log
    norm_num at log
    exact log
  have error : |(digits * 10 ^ e : ℚ) - x.magnitude| ≤ 1 / 2 * 10 ^ e := by
    rw [scaled, value] at half
    calc |(digits * 10 ^ e : ℚ) - x.magnitude|
        = |x.magnitude / 10 ^ e - digits| * 10 ^ e := by
          rw [abs_sub_comm, ← abs_of_pos power, ← abs_mul, abs_of_pos power, sub_mul,
            div_mul_cancel₀ _ (ne_of_gt power)]
      _ ≤ 1 / 2 * 10 ^ e := mul_le_mul_of_nonneg_right half (le_of_lt power)
  norm_num
  linarith

/-- **The shortest decimal is read back.** -/
theorem ofDecimal_shortest (finite : x.word.val < infiniteWord) (nonzero : x.word.val ≠ 0) :
    ofDecimal x.negative x.shortest.1 x.shortest.2 = x ∧ 0 < x.shortest.1 := by
  obtain ⟨denominator, value⟩ := x.ratio_value
  have positive : (0 : ℚ) < x.magnitude :=
    lt_of_lt_of_le (by positivity) (magnitude_bounds finite nonzero).1
  have numerator : 0 < x.ratio.1 := by
    rw [← value] at positive
    exact_mod_cast (div_pos_iff_of_pos_right (by exact_mod_cast denominator)).mp positive
  have place := decimalPlace_eq_log numerator denominator
  rw [value] at place
  have last : (onGrid? x x.ratio.1 x.ratio.2
      (decimalPlace x.ratio.1 x.ratio.2 - ((16 : Nat) + 1 : Int))).isSome = true :=
    onGrid?_seventeen finite nonzero denominator value (by omega)
  have back : ofDecimal x.negative x.shortest.1 x.shortest.2 = x := by
    unfold shortest
    dsimp only
    cases search : (List.range 17).findSome? fun (count : Nat) =>
        onGrid? x x.ratio.1 x.ratio.2 (decimalPlace x.ratio.1 x.ratio.2 - (count + 1)) with
    | none =>
        rw [List.findSome?_eq_none_iff] at search
        rw [search 16 (by decide)] at last
        cases last
    | some found =>
        obtain ⟨count, -, picked⟩ := List.exists_of_findSome?_eq_some search
        exact onGrid?_eq_some picked
  refine ⟨back, Nat.pos_of_ne_zero fun none => nonzero ?_⟩
  rw [← back, none]
  rfl

end shortest

end Preferences.Binary64

import Preferences.Proofs.Number.ReadBack

/-! # The nearest number

`ofRatio` gives the finite number whose magnitude is nearest to a quotient, and of two that are as
near the one with the even word (`IsNearest`), unless the quotient is so large that it is rounded to
infinity (`overflow`).  A decimal is read in the same way (`ofDecimal_rounds`). -/

namespace Preferences.Binary64

variable {x y : Binary64} {n d m : Nat} {e : Int} {q t : ℚ} {negative : Bool}

def IsFinite (x : Binary64) : Prop := x.word.val < infiniteWord

/-- No finite number is nearer to the magnitude, and another one is as near only where the word is
even. -/
structure IsNearest (q : ℚ) (x : Binary64) : Prop where
  finite : x.IsFinite
  nearest : ∀ y : Binary64, y.IsFinite → |q - x.magnitude| ≤ |q - y.magnitude|
  even : ∀ y : Binary64, y.IsFinite → |q - x.magnitude| = |q - y.magnitude| →
    y.word = x.word ∨ x.word.val % 2 = 0

/-- The least magnitude that is rounded to infinity. -/
def overflow : ℚ := 2 ^ (1024 : Int) - 2 ^ (970 : Int)

/-- The number that a magnitude is rounded to, with its sign. -/
structure Rounds (negative : Bool) (q : ℚ) (x : Binary64) : Prop where
  sign : x.negative = negative
  nearest : q < overflow → x.IsNearest q
  infinite : overflow ≤ q → x.word.val = infiniteWord

theorem overflow_eq : overflow = (9007199254740992 - 1 / 2) * 2 ^ (971 : Int) := by
  have top : (2 : ℚ) ^ (1024 : Int) = 9007199254740992 * 2 ^ (971 : Int) := by
    rw [show (1024 : Int) = 53 + 971 by rfl, zpow_add₀ (by norm_num)]
    norm_num
  have last : (2 : ℚ) ^ (971 : Int) = 2 ^ (970 : Int) * 2 := zpow_add_one₀ (by norm_num) 970
  unfold overflow
  rw [top, last]
  ring

theorem one_lt_overflow : 1 < overflow := by
  rw [overflow_eq]
  calc (1 : ℚ) < (9007199254740992 - 1 / 2) * 1 := by norm_num
    _ ≤ (9007199254740992 - 1 / 2) * 2 ^ (971 : Int) :=
        mul_le_mul_of_nonneg_left (one_le_zpow₀ (by norm_num) (by norm_num)) (by norm_num)

/-! ### Magnitudes and the multiples of a power of two -/

/-- All magnitudes are multiples of one power of two. -/
theorem cast_significand_mul (x : Binary64) :
    ((x.significand * twoTo x.scale : Nat) : ℚ) = x.magnitude * 2 ^ (1075 : Int) := by
  have exponent : (x.scale : Int) = x.exponent + 1075 := by
    unfold scale Binary64.exponent
    omega
  rw [Nat.cast_mul, cast_twoTo, exponent, zpow_add₀ (by norm_num), magnitude, mul_assoc]

theorem word_eq_of_magnitude_eq (same : x.magnitude = y.magnitude) : x.word = y.word := by
  have scaled := x.cast_significand_mul
  rw [same, ← y.cast_significand_mul] at scaled
  exact word_eq_of_magnitude (by exact_mod_cast scaled)

/-- Words are ordered as the magnitudes are. -/
theorem magnitude_lt_of_word_lt (h : x.word.val < y.word.val) : x.magnitude < y.magnitude := by
  have scaled : x.significand * twoTo x.scale < y.significand * twoTo y.scale := by
    rcases Nat.lt_trichotomy x.scale y.scale with lt | scales | gt
    · exact magnitude_lt_of_scale_lt lt
    · rw [scales]
      refine Nat.mul_lt_mul_of_pos_right ?_ (twoTo_pos _)
      unfold scale at scales
      unfold significand
      rw [twoTo_52] at *
      split_ifs <;> omega
    · unfold scale at gt
      rw [twoTo_52] at gt
      omega
  have scaled : ((x.significand * twoTo x.scale : Nat) : ℚ) <
      (y.significand * twoTo y.scale : Nat) := by exact_mod_cast scaled
  rw [cast_significand_mul, cast_significand_mul] at scaled
  exact lt_of_mul_lt_mul_right scaled (by positivity)

/-- The magnitude of the number that a word with an exponent and a significand makes, which may
carry into the exponent. -/
theorem magnitude_of_word (word : x.word.val = (e + 1074).toNat * twoTo 52 + m)
    (least : -1074 ≤ e) (bits : m ≤ 2 * twoTo 52) (full : e = -1074 ∨ twoTo 52 ≤ m) :
    x.magnitude = m * 2 ^ e := by
  rw [twoTo_52] at word bits full
  rcases Nat.lt_or_eq_of_le bits with fits | carry
  · have exponent : x.exponent = e := by
      unfold Binary64.exponent
      rw [word, twoTo_52]
      omega
    have significand : x.significand = m := by
      unfold Binary64.significand
      rw [word, twoTo_52]
      split_ifs <;> omega
    rw [magnitude, exponent, significand]
  · have exponent : x.exponent = e + 1 := by
      unfold Binary64.exponent
      rw [word, twoTo_52]
      omega
    have significand : x.significand = 4503599627370496 := by
      unfold Binary64.significand
      rw [word, twoTo_52]
      split_ifs <;> omega
    rw [magnitude, exponent, significand, carry, zpow_add_one₀ (by norm_num)]
    push_cast
    ring

theorem exists_multiple (h : e ≤ y.exponent) : ∃ k : Int, y.magnitude = k * 2 ^ e := by
  refine ⟨y.significand * 2 ^ (y.exponent - e).toNat, ?_⟩
  have power : (2 : ℚ) ^ y.exponent = 2 ^ (y.exponent - e).toNat * 2 ^ e := by
    rw [← zpow_natCast, Int.toNat_of_nonneg (by omega), ← zpow_add₀ (by norm_num),
      Int.sub_add_cancel]
  rw [magnitude, power]
  push_cast
  ring

/-- A number with a smaller exponent is smaller than all significands with their first bit. -/
theorem magnitude_lt_of_exponent_lt (h : y.exponent < e) : y.magnitude < 2 ^ 52 * 2 ^ e := by
  have bits : (y.significand : ℚ) < 2 * 2 ^ 52 := by
    have bound := y.significand_lt
    rw [twoTo_52] at bound
    norm_num
    exact_mod_cast bound
  calc y.magnitude < 2 * 2 ^ 52 * 2 ^ y.exponent :=
        mul_lt_mul_of_pos_right bits (by positivity)
    _ = 2 ^ 52 * 2 ^ (y.exponent + 1) := by
        rw [zpow_add_one₀ (by norm_num)]
        ring
    _ ≤ 2 ^ 52 * 2 ^ e := by
        have := zpow_le_zpow_right₀ (a := (2 : ℚ)) (by norm_num) h
        gcongr

/-! ### Nearest integers -/

theorem abs_sub_mul_zpow (a b : ℚ) (e : Int) : |a * 2 ^ e - b * 2 ^ e| = |a - b| * 2 ^ e := by
  have power : (0 : ℚ) < 2 ^ e := by positivity
  rw [← sub_mul, abs_mul, abs_of_pos power]

/-- No integer is nearer than one that is at most half away. -/
theorem abs_sub_le_of_half {a : Int} (half : |t - a| ≤ 1 / 2) (b : Int) :
    |t - a| ≤ |t - b| ∧ (|t - a| = |t - b| → b = a ∨ |t - a| = 1 / 2) := by
  by_cases same : b = a
  · rw [same]
    exact ⟨le_rfl, fun _ => Or.inl rfl⟩
  · have apart : (1 : ℚ) ≤ |(a - b : ℚ)| := by
      have whole : 1 ≤ |a - b| := Int.one_le_abs (sub_ne_zero.mpr (Ne.symm same))
      exact_mod_cast whole
    have detour : |(a - b : ℚ)| ≤ |t - a| + |t - b| := by
      rw [abs_sub_comm t a]
      exact abs_sub_le (a : ℚ) t b
    exact ⟨by linarith, fun tie => Or.inr (by linarith)⟩

/-- Halfway between two integers, the nearest one is even. -/
theorem roundDiv_even_of_half (hd : 0 < d) (half : |(n / d : ℚ) - roundDiv n d| = 1 / 2) :
    roundDiv n d % 2 = 0 := by
  have denominator : (0 : ℚ) < d := by exact_mod_cast hd
  have scaled : |(2 * n - 2 * (d * roundDiv n d) : ℚ)| = d := by
    have value : (2 * n - 2 * (d * roundDiv n d) : ℚ) = (n / d - roundDiv n d) * (2 * d) := by
      field_simp
    rw [value, abs_mul, half, abs_of_pos (by linarith)]
    ring
  have either : 2 * n = 2 * (d * roundDiv n d) + d ∨ 2 * n + d = 2 * (d * roundDiv n d) := by
    rcases (abs_eq (le_of_lt denominator)).mp scaled with above | below
    · have : (2 * n : ℚ) = 2 * (d * roundDiv n d) + d := by linarith
      exact Or.inl (by exact_mod_cast this)
    · have : (2 * n + d : ℚ) = 2 * (d * roundDiv n d) := by linarith
      exact Or.inr (by exact_mod_cast this)
  have division := Nat.div_add_mod n d
  have rest := Nat.mod_lt n hd
  unfold roundDiv at either ⊢
  dsimp only at either ⊢
  split_ifs at either ⊢ with low high
  · omega
  · rw [Nat.mul_add, Nat.mul_one] at either
    omega
  · omega

/-! ### Units -/

section units

/-- A positive quotient in units of the exponent that it is rounded with. -/
structure InUnits (t : ℚ) (e : Int) : Prop where
  least : -1074 ≤ e
  high : t < 9007199254740992
  full : e = -1074 ∨ 4503599627370496 ≤ t

theorem inUnits_div (positive : 0 < q) :
    InUnits (q / 2 ^ max (Int.log 2 q - 52) (-1074)) (max (Int.log 2 q - 52) (-1074)) := by
  generalize exponent : max (Int.log 2 q - 52) (-1074) = e
  have power : (0 : ℚ) < 2 ^ e := by positivity
  have above : q < 2 ^ (53 + e) := by
    calc q < (2 : Nat) ^ (Int.log 2 q + 1) := Int.lt_zpow_succ_log_self (by decide) q
      _ ≤ 2 ^ (53 + e) := zpow_le_zpow_right₀ (by norm_num) (by omega)
  refine ⟨by omega, ?_, ?_⟩
  · rw [div_lt_iff₀ power]
    rw [zpow_add₀ (by norm_num)] at above
    norm_num at above
    exact above
  · rcases Int.lt_or_eq_of_le (show -1074 ≤ e by omega) with normal | least
    · refine Or.inr ?_
      have below : (2 : ℚ) ^ (52 + e) ≤ q := by
        have log : 52 + e = Int.log 2 q := by omega
        rw [log]
        exact Int.zpow_log_le_self (by decide) positive
      rw [le_div_iff₀ power]
      rw [zpow_add₀ (by norm_num)] at below
      norm_num at below
      exact below
    · exact Or.inl least.symm

variable (units : InUnits t e)
include units

/-- With an exponent less than the last one, everything stays finite. -/
theorem InUnits.lt_overflow (small : e < 971) : t * 2 ^ e < overflow := by
  have positive : (0 : ℚ) < 2 ^ e := by positivity
  have power : (2 : ℚ) ^ e * 2 ≤ 2 ^ (971 : Int) := by
    rw [← zpow_add_one₀ (by norm_num)]
    exact zpow_le_zpow_right₀ (by norm_num) small
  rw [overflow_eq]
  calc t * 2 ^ e < 9007199254740992 * 2 ^ e := mul_lt_mul_of_pos_right units.high positive
    _ ≤ (9007199254740992 - 1 / 2) * (2 ^ e * 2) := by linarith
    _ ≤ (9007199254740992 - 1 / 2) * 2 ^ (971 : Int) :=
        mul_le_mul_of_nonneg_left power (by norm_num)

theorem InUnits.overflow_le (large : 971 < e) : overflow ≤ t * 2 ^ e := by
  have positive : (0 : ℚ) < 2 ^ (971 : Int) := by positivity
  have power : (2 : ℚ) ^ (971 : Int) * 2 ≤ 2 ^ e := by
    rw [← zpow_add_one₀ (by norm_num)]
    exact zpow_le_zpow_right₀ (by norm_num) large
  have bit : 4503599627370496 ≤ t := units.full.resolve_left (by omega)
  rw [overflow_eq]
  generalize (2 : ℚ) ^ (971 : Int) = last at power positive ⊢
  calc (9007199254740992 - 1 / 2) * last ≤ 4503599627370496 * (last * 2) := by linarith
    _ ≤ 4503599627370496 * 2 ^ e := mul_le_mul_of_nonneg_left power (by norm_num)
    _ ≤ t * 2 ^ e := mul_le_mul_of_nonneg_right bit (by positivity)

variable (half : |t - m| ≤ 1 / 2)
include half

/-- The nearest integer takes as many bits, or carries. -/
theorem InUnits.bits : m ≤ 2 * twoTo 52 ∧ (e = -1074 ∨ twoTo 52 ≤ m) := by
  obtain ⟨low, high⟩ := abs_le.mp half
  have limit := units.high
  rw [twoTo_52]
  refine ⟨?_, units.full.imp_right fun full => ?_⟩
  · have : (m : ℚ) < (9007199254740993 : Nat) := by
      rw [Nat.cast_ofNat]
      linarith
    have := Nat.cast_lt.mp this
    omega
  · have : ((4503599627370495 : Nat) : ℚ) < m := by
      rw [Nat.cast_ofNat]
      linarith
    exact Nat.cast_lt.mp this

/-- The numbers of smaller exponents are below the least one that the quotient can be rounded to. -/
theorem InUnits.lt_of_exponent_lt (lower : y.exponent < e) :
    |t * 2 ^ e - m * 2 ^ e| < |t * 2 ^ e - y.magnitude| := by
  have power : (0 : ℚ) < 2 ^ e := by positivity
  have full : 4503599627370496 ≤ t := by
    have := y.neg_le_exponent
    exact units.full.resolve_left (by omega)
  have far : y.magnitude < 4503599627370496 * 2 ^ e := by
    have := magnitude_lt_of_exponent_lt lower
    norm_num at this
    exact this
  have first : |t - m| ≤ t - 4503599627370496 := by
    have := (abs_sub_le_of_half (a := m) (by exact_mod_cast half) 4503599627370496).1
    norm_num at this
    rwa [abs_of_nonneg (by linarith : 0 ≤ t - 4503599627370496)] at this
  calc |t * 2 ^ e - m * 2 ^ e| = |t - m| * 2 ^ e := abs_sub_mul_zpow t m e
    _ ≤ (t - 4503599627370496) * 2 ^ e := mul_le_mul_of_nonneg_right first (le_of_lt power)
    _ = t * 2 ^ e - 4503599627370496 * 2 ^ e := sub_mul ..
    _ < t * 2 ^ e - y.magnitude := sub_lt_sub_left far _
    _ ≤ |t * 2 ^ e - y.magnitude| := le_abs_self _

/-- The integer is as near as every finite number is. -/
theorem InUnits.nearest (y : Binary64) :
    |t * 2 ^ e - m * 2 ^ e| ≤ |t * 2 ^ e - y.magnitude| ∧
      (|t * 2 ^ e - m * 2 ^ e| = |t * 2 ^ e - y.magnitude| →
        y.magnitude = m * 2 ^ e ∨ |t - m| = 1 / 2) := by
  have power : (0 : ℚ) < 2 ^ e := by positivity
  rcases Int.lt_or_le y.exponent e with lower | same
  · have strict := units.lt_of_exponent_lt half lower
    exact ⟨le_of_lt strict, fun tie => absurd tie (ne_of_lt strict)⟩
  · obtain ⟨k, multiple⟩ := exists_multiple same
    obtain ⟨near, tie⟩ := abs_sub_le_of_half (a := m) (by exact_mod_cast half) k
    rw [multiple, abs_sub_mul_zpow, abs_sub_mul_zpow]
    refine ⟨mul_le_mul_of_nonneg_right (by exact_mod_cast near) (le_of_lt power), fun equal => ?_⟩
    have equal := mul_right_cancel₀ (ne_of_gt power) equal
    refine (tie (by exact_mod_cast equal)).imp (fun same => ?_) fun half => by exact_mod_cast half
    rw [same]
    rfl

/-- With the last exponent, what is rounded to infinity is what carries. -/
theorem InUnits.carries_iff (even : |t - m| = 1 / 2 → m % 2 = 0) :
    m = 9007199254740992 ↔ 9007199254740992 - 1 / 2 ≤ t := by
  obtain ⟨low, high⟩ := abs_le.mp half
  have bits := (units.bits half).1
  rw [twoTo_52] at bits
  constructor
  · rintro rfl
    push_cast at low
    linarith
  · intro enough
    by_contra short
    have most : (m : ℚ) ≤ (9007199254740991 : Nat) := by
      have : m ≤ 9007199254740991 := by omega
      exact_mod_cast this
    push_cast at most
    -- The quotient can only be halfway between the two integers, of which the greater is even.
    have tie : |t - m| = 1 / 2 := by
      rw [abs_of_nonneg (by linarith)]
      linarith
    have odd : m = 9007199254740991 := by
      have : (9007199254740991 : Nat) ≤ (m : ℚ) := by
        push_cast
        linarith
      have := Nat.cast_le.mp this
      omega
    have := even tie
    omega

/-- What is rounded to infinity. -/
theorem InUnits.infinite_iff (even : |t - m| = 1 / 2 → m % 2 = 0) :
    infiniteWord ≤ (e + 1074).toNat * twoTo 52 + m ↔ overflow ≤ t * 2 ^ e := by
  have bits := units.bits half
  have least := units.least
  unfold infiniteWord
  rw [twoTo_52] at *
  rcases Int.lt_trichotomy e 971 with small | rfl | large
  · exact iff_of_false (by omega) (not_le.mpr (units.lt_overflow small))
  · have positive : (0 : ℚ) < 2 ^ (971 : Int) := by positivity
    rw [overflow_eq, mul_le_mul_iff_left₀ positive, ← units.carries_iff half even]
    omega
  · exact iff_of_true (by omega) (units.overflow_le large)

end units

/-! ### Rounding -/

theorem ofWord_val (negative : Bool) (word : Nat) :
    (ofWord negative word).word.val = min word infiniteWord := by
  have fits : min word infiniteWord < 0x8000000000000000 :=
    Nat.lt_of_le_of_lt (Nat.min_le_right _ _) (by decide)
  exact Nat.mod_eq_of_lt fits

/-- Of what is below half the least number, zero is the nearest. -/
theorem rounds_zero (negative : Bool) (positive : 0 ≤ q) (small : q < 2 ^ (-1074 : Int) / 2) :
    Rounds negative q (ofWord negative 0) := by
  have word : (ofWord negative 0).word.val = 0 := ofWord_val negative 0
  have zero : (ofWord negative 0).magnitude = 0 := by
    unfold magnitude significand
    rw [word, twoTo_52]
    norm_num
  have bounded : q < overflow := by
    have least : (2 : ℚ) ^ (-1074 : Int) ≤ 1 :=
      zpow_le_one_of_nonpos₀ (by norm_num) (by norm_num)
    have := one_lt_overflow
    linarith
  refine ⟨rfl, fun _ => ⟨?_, fun y finite => ?_, fun _ _ _ => Or.inr (by rw [word])⟩,
    fun beyond => absurd beyond (not_le.mpr bounded)⟩
  · unfold IsFinite
    rw [word]
    decide
  · rw [zero, sub_zero, abs_of_nonneg positive]
    by_cases none : y.word.val = 0
    · have same : y.magnitude = 0 := by
        unfold magnitude significand
        rw [none, twoTo_52]
        norm_num
      rw [same, sub_zero, abs_of_nonneg positive]
    · have := (magnitude_bounds finite none).1
      rw [abs_sub_comm, abs_of_nonneg (by linarith)]
      linarith

theorem ofRatio_rounds (negative : Bool) (n : Nat) (hd : 0 < d) :
    Rounds negative (n / d) (ofRatio negative n d) := by
  rcases Nat.eq_zero_or_pos n with rfl | hn
  · have zero : ofRatio negative 0 d = ofWord negative 0 := if_pos rfl
    rw [zero, Nat.cast_zero, zero_div]
    exact rounds_zero negative le_rfl (by positivity)
  have positive : (0 : ℚ) < n / d := by
    have : (0 : ℚ) < d := by exact_mod_cast hd
    positivity
  have units := inUnits_div positive
  have rounded := ofRatio_eq_ofWord negative hn hd rfl
  generalize max (Int.log 2 (n / d : ℚ) - 52) (-1074) = e at units rounded
  obtain ⟨denominator, value⟩ := unscale_value n hd e
  have half := abs_sub_roundDiv_le (unscale n d e).1 denominator
  have even := roundDiv_even_of_half (n := (unscale n d e).1) denominator
  rw [value] at half even
  generalize roundDiv (unscale n d e).1 (unscale n d e).2 = m at half even rounded
  have whole : (n / d : ℚ) = n / d / 2 ^ e * 2 ^ e := (div_mul_cancel₀ _ (by positivity)).symm
  rw [rounded, whole]
  generalize (n / d / 2 ^ e : ℚ) = t at units half even
  have infinite := units.infinite_iff half even
  have word := ofWord_val negative ((e + 1074).toNat * twoTo 52 + m)
  refine ⟨rfl, fun bounded => ?_, fun beyond => ?_⟩
  · have below := Nat.lt_of_not_le (mt infinite.mp (not_le.mpr bounded))
    rw [Nat.min_eq_left (Nat.le_of_lt below)] at word
    generalize ofWord negative ((e + 1074).toNat * twoTo 52 + m) = x at word
    obtain ⟨bits, full⟩ := units.bits half
    have magnitude := magnitude_of_word word units.least bits full
    have finite : x.IsFinite := by
      unfold IsFinite
      rwa [word]
    refine ⟨finite, fun y _ => ?_, fun y _ tie => ?_⟩
    · rw [magnitude]
      exact (units.nearest half y).1
    · rw [magnitude] at tie
      refine ((units.nearest half y).2 tie).imp (fun same => ?_) fun halfway => ?_
      · exact word_eq_of_magnitude_eq (same.trans magnitude.symm)
      · have := even halfway
        rw [word, twoTo_52]
        omega
  · rw [word]
    exact Nat.min_eq_right (infinite.mpr beyond)

/-- **A decimal is rounded to the nearest number.** -/
theorem ofDecimal_rounds (negative : Bool) (n : Nat) (e : Int) :
    Rounds negative (n * 10 ^ e) (ofDecimal negative n e) := by
  rcases Nat.eq_zero_or_pos n with rfl | hn
  · have zero : ofDecimal negative 0 e = ofWord negative 0 := if_pos rfl
    rw [zero, Nat.cast_zero, zero_mul]
    exact rounds_zero negative le_rfl (by positivity)
  by_cases large : 310 < e + decimalLength n
  · have value : overflow ≤ n * 10 ^ e := by
      calc overflow ≤ 2 ^ (1024 : Int) := sub_le_self _ (by positivity)
        _ ≤ 2 * 2 ^ (1024 : Int) := le_mul_of_one_le_left (by positivity) (by norm_num)
        _ ≤ n * 10 ^ e := le_of_lt (two_pow_lt_of_length hn large)
    rw [ofDecimal, if_neg (Nat.ne_of_gt hn), if_pos large]
    exact ⟨rfl, fun bounded => absurd value (not_le.mpr bounded),
      fun _ => (ofWord_val negative infiniteWord).trans (Nat.min_self _)⟩
  by_cases small : e + decimalLength n < -330
  · rw [ofDecimal, if_neg (Nat.ne_of_gt hn), if_neg large, if_pos small]
    exact rounds_zero negative (by positivity) (lt_half_of_length hn small)
  obtain ⟨a, b, ha, hb, value⟩ := exists_quotient hn e
  rw [ofDecimal_eq_ofRatio negative hn (by omega) (by omega) ha hb value, ← value]
  exact ofRatio_rounds negative a hb

/-- What is between two as near is nearer. -/
theorem abs_sub_lt_of_between {a b c : ℚ} (tie : |q - a| = |q - b|) (above : a < c)
    (below : c < b) : |q - c| < |q - a| := by
  rcases abs_eq_abs.mp tie with same | middle
  · linarith
  · rw [abs_of_nonneg (by linarith : 0 ≤ q - a), abs_lt]
    constructor <;> linarith

/-- Only one number is the nearest one, up to its sign. -/
theorem IsNearest.word_eq (hx : x.IsNearest q) (hy : y.IsNearest q) : x.word = y.word := by
  -- Two of them would be as near from both sides, both even, and a number between them nearer.
  have apart : ∀ {x y : Binary64}, x.IsNearest q → y.IsNearest q → ¬x.word.val < y.word.val := by
    intro x y hx hy lt
    have tie : |q - x.magnitude| = |q - y.magnitude| :=
      le_antisymm (hx.nearest y hy.finite) (hy.nearest x hx.finite)
    have evens : x.word.val % 2 = 0 ∧ y.word.val % 2 = 0 :=
      ⟨(hx.even y hy.finite tie).resolve_left fun same => Nat.ne_of_gt lt (congrArg Fin.val same),
        (hy.even x hx.finite tie.symm).resolve_left fun same =>
          Nat.ne_of_lt lt (congrArg Fin.val same)⟩
    have bound : y.word.val < infiniteWord := hy.finite
    obtain ⟨z, word⟩ : ∃ z : Binary64, z.word.val = x.word.val + 1 :=
      ⟨ofWord false (x.word.val + 1), by
        rw [ofWord_val]
        omega⟩
    have finite : z.IsFinite := by
      unfold IsFinite
      omega
    have above : x.magnitude < z.magnitude := magnitude_lt_of_word_lt (by omega)
    have below : z.magnitude < y.magnitude := magnitude_lt_of_word_lt (by omega)
    exact absurd (hx.nearest z finite) (not_le.mpr (abs_sub_lt_of_between tie above below))
  exact Fin.ext (Nat.le_antisymm (Nat.le_of_not_lt (apart hy hx)) (Nat.le_of_not_lt (apart hx hy)))

theorem Rounds.eq (hx : Rounds negative q x) (hy : Rounds negative q y) : x = y := by
  have words : x.word = y.word := by
    rcases lt_or_ge q overflow with bounded | beyond
    · exact (hx.nearest bounded).word_eq (hy.nearest bounded)
    · exact Fin.ext ((hx.infinite beyond).trans (hy.infinite beyond).symm)
  obtain ⟨negative', word⟩ := x
  obtain ⟨negative'', word'⟩ := y
  obtain rfl : negative' = negative := hx.sign
  obtain rfl : negative'' = negative' := hy.sign
  obtain rfl : word = word' := words
  rfl

theorem rounds_iff_eq_ofDecimal : x.Rounds negative (n * 10 ^ e) ↔ x = ofDecimal negative n e :=
  ⟨fun h => h.eq (ofDecimal_rounds negative n e), fun same => same ▸ ofDecimal_rounds negative n e⟩

theorem Rounds.isFinite_iff (h : Rounds negative q x) : x.IsFinite ↔ q < overflow := by
  refine ⟨fun finite => ?_, fun bounded => (h.nearest bounded).finite⟩
  by_contra beyond
  have word := h.infinite (not_lt.mp beyond)
  exact absurd finite (by rw [IsFinite, word]; exact Nat.lt_irrefl _)

/-- **An integer is rounded to the nearest number**, unless that is infinite. -/
theorem ofInt?_eq_some_iff {n : Int} :
    ofInt? n = some x ↔
      (n.natAbs : ℚ) < overflow ∧ Rounds (decide (n < 0)) n.natAbs x := by
  have rounds : Rounds (decide (n < 0)) n.natAbs (ofRatio (decide (n < 0)) n.natAbs 1) := by
    have := ofRatio_rounds (decide (n < 0)) n.natAbs Nat.one_pos
    rwa [Nat.cast_one, div_one] at this
  have infinite : (ofRatio (decide (n < 0)) n.natAbs 1).isInfinite = true ↔
      overflow ≤ (n.natAbs : ℚ) := by
    rw [isInfinite, beq_iff_eq]
    refine ⟨fun word => ?_, rounds.infinite⟩
    by_contra bounded
    have finite := rounds.isFinite_iff.mpr (not_le.mp bounded)
    exact absurd word (Nat.ne_of_lt finite)
  unfold ofInt?
  dsimp only
  rw [ite_eq_iff]
  constructor
  · rintro (⟨-, nothing⟩ | ⟨bounded, same⟩)
    · cases nothing
    · obtain rfl := Option.some.inj same
      exact ⟨not_le.mp (mt infinite.mpr bounded), rounds⟩
  · rintro ⟨bounded, same⟩
    exact Or.inr ⟨mt infinite.mp (not_le.mpr bounded), congrArg some (rounds.eq same)⟩

end Preferences.Binary64

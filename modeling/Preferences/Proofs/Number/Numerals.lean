import Mathlib.Tactic.Ring
import Mathlib.Tactic.SplitIfs
import Preferences.Proofs.Number.ReadBack
import Preferences.Toml.Scalar

/-! # Numbers that are written are read back

`Toml.readDecimal?` reads decimal numbers in the notation that documents and code share: a whole
number, or one with a point or an exponent, which is a floating-point number.  It reads back what a
whole number is written as (`readDecimal?_int`) and what a finite floating-point number is written
as (`readDecimal?_text`), whichever layout that takes. -/

namespace Preferences.Toml

open Numeral (isAsciiDigit ofDigits splitSign maxDigits)

variable {whole fraction power digits rest : List Char} {negative : Bool}

/-! ### Digits -/

/-- The number is not continued by what follows it. -/
def EndsNumber (rest : List Char) : Prop :=
  ∀ c ∈ rest.head?, isAsciiDigit c = false ∧ c ∉ ['_', '.', 'e', 'E']

theorem takeDigits_append {isDigit : Char → Bool} (all : ∀ c ∈ digits, isDigit c = true)
    (ends : ∀ c ∈ rest.head?, isDigit c = false ∧ c ≠ '_') :
    takeDigits isDigit (digits ++ rest) = (digits, rest) := by
  induction digits with
  | nil =>
      cases rest with
      | nil => rfl
      | cons c rest =>
          obtain ⟨other, apart⟩ := ends c rfl
          simp [takeDigits, other, apart]
  | cons c digits ih =>
      obtain ⟨first, all⟩ := List.forall_mem_cons.mp all
      rw [List.cons_append, takeDigits, if_pos first, ih all]

theorem readDigits?_append (some_digits : digits ≠ []) (all : ∀ c ∈ digits, isAsciiDigit c = true)
    (ends : ∀ c ∈ rest.head?, isAsciiDigit c = false ∧ c ≠ '_') :
    readDigits? isAsciiDigit (digits ++ rest) = some (digits, rest) := by
  obtain ⟨c, digits, rfl⟩ := List.exists_cons_of_ne_nil some_digits
  have first := all c List.mem_cons_self
  have read := takeDigits_append all ends
  unfold readDigits?
  rw [read, List.cons_append, List.head?_cons, Option.any_some, if_pos first]

/-- Digits as they stand before a point: a single zero, or digits that begin with another one. -/
structure IsWhole (digits : List Char) : Prop where
  all : ∀ c ∈ digits, isAsciiDigit c = true
  first : digits = ['0'] ∨ ∃ c others, digits = c :: others ∧ c ≠ '0'

theorem IsWhole.read (h : IsWhole whole)
    (ends : ∀ c ∈ rest.head?, isAsciiDigit c = false ∧ c ≠ '_') :
    readWhole? (whole ++ rest) = some (whole, rest) := by
  rcases h.first with rfl | ⟨c, others, rfl, nonzero⟩
  · rfl
  · have read : readDigits? isAsciiDigit (c :: others ++ rest) = some (c :: others, rest) :=
      readDigits?_append (List.cons_ne_nil _ _) h.all ends
    rw [List.cons_append] at read ⊢
    unfold readWhole?
    split
    · next same => exact absurd (List.cons.inj same).1 nonzero
    · exact read

/-- What stands in front of the digits of a number. -/
def sign (negative : Bool) : List Char := if negative then ['-'] else []

theorem IsWhole.splitSign (h : IsWhole whole) (negative : Bool) (rest : List Char) :
    splitSign (sign negative ++ (whole ++ rest)) = (negative, whole ++ rest) := by
  cases negative with
  | true => rfl
  | false =>
      obtain ⟨c, others, rfl⟩ : ∃ c others, whole = c :: others := by
        rcases h.first with rfl | ⟨c, others, rfl, -⟩ <;> exact ⟨_, _, rfl⟩
      have digit := h.all c List.mem_cons_self
      have unsigned : c ≠ '-' ∧ c ≠ '+' := by
        constructor <;> rintro rfl <;> cases digit
      show Numeral.splitSign (c :: (others ++ rest)) = _
      unfold Numeral.splitSign
      split
      · next same => exact absurd (List.cons.inj same).1 unsigned.1
      · next same => exact absurd (List.cons.inj same).1 unsigned.2
      · rfl

/-! ### Numbers -/

theorem readFraction?_point (some_digits : fraction ≠ [])
    (all : ∀ c ∈ fraction, isAsciiDigit c = true)
    (ends : ∀ c ∈ rest.head?, isAsciiDigit c = false ∧ c ≠ '_') :
    readFraction? ('.' :: (fraction ++ rest)) = some (fraction, rest) :=
  readDigits?_append some_digits all ends

theorem readFraction?_none (ends : ∀ c ∈ rest.head?, c ≠ '.') : readFraction? rest = none := by
  unfold readFraction?
  split
  · exact absurd rfl (ends '.' rfl)
  · rfl

theorem readPower?_none (ends : ∀ c ∈ rest.head?, c ≠ 'e' ∧ c ≠ 'E') : readPower? rest = none := by
  cases rest with
  | nil => rfl
  | cons c rest =>
      obtain ⟨small, capital⟩ := ends c rfl
      simp [readPower?, small, capital]

theorem EndsNumber.noDigit (h : EndsNumber rest) :
    ∀ c ∈ rest.head?, isAsciiDigit c = false ∧ c ≠ '_' :=
  fun c hc => ⟨(h c hc).1, fun same => (h c hc).2 (by simp [same])⟩

theorem EndsNumber.noFraction (h : EndsNumber rest) : readFraction? rest = none :=
  readFraction?_none fun c hc same => (h c hc).2 (by simp [same])

theorem EndsNumber.noPower (h : EndsNumber rest) : readPower? rest = none :=
  readPower?_none fun c hc => ⟨fun same => (h c hc).2 (by simp [same]),
    fun same => (h c hc).2 (by simp [same])⟩

theorem readPower?_signed (down : Bool) (some_digits : power ≠ [])
    (all : ∀ c ∈ power, isAsciiDigit c = true)
    (ends : EndsNumber rest) :
    readPower? ('e' :: (if down then '-' else '+') :: (power ++ rest)) =
      some (if down then -(ofDigits power : Int) else ofDigits power, rest) := by
  have read := readDigits?_append some_digits all ends.noDigit
  cases down <;> simp [readPower?, Numeral.splitSign, read]

theorem readDecimal?_whole (h : IsWhole whole) (short : whole.length ≤ maxDigits)
    (ends : EndsNumber rest) :
    readDecimal? (sign negative ++ (whole ++ rest)) =
      some (.ok (.int (if negative then -(ofDigits whole : Int) else ofDigits whole)), rest) := by
  have limit : ¬maxDigits < whole.length := Nat.not_lt.mpr short
  simp [readDecimal?, h.splitSign, h.read ends.noDigit, ends.noFraction, ends.noPower, limit]

theorem readDecimal?_point (negative : Bool) (h : IsWhole whole) (some_digits : fraction ≠ [])
    (all : ∀ c ∈ fraction, isAsciiDigit c = true) (ends : EndsNumber rest) :
    readDecimal? (sign negative ++ (whole ++ '.' :: (fraction ++ rest))) =
      some (.ok (.float (Binary64.ofDecimal negative (ofDigits (whole ++ fraction))
        (-fraction.length))), rest) := by
  have point : ∀ c ∈ ('.' :: (fraction ++ rest)).head?, isAsciiDigit c = false ∧ c ≠ '_' := by
    simp [isAsciiDigit]
  simp [readDecimal?, h.splitSign, h.read point, readFraction?_point some_digits all ends.noDigit,
    ends.noPower]

/-- A number with an exponent is read back, whether it has a point or not. -/
theorem readDecimal?_power (negative down : Bool) (h : IsWhole whole)
    (all : ∀ c ∈ fraction, isAsciiDigit c = true)
    (some_digits : power ≠ []) (all' : ∀ c ∈ power, isAsciiDigit c = true)
    (ends : EndsNumber rest) :
    readDecimal? (sign negative ++ (whole ++
      ((if fraction.isEmpty then [] else '.' :: fraction) ++
        'e' :: (if down then '-' else '+') :: (power ++ rest)))) =
      some (.ok (.float (Binary64.ofDecimal negative (ofDigits (whole ++ fraction))
        ((if down then -(ofDigits power : Int) else ofDigits power) - fraction.length))),
        rest) := by
  have letter : ∀ c ∈ ('e' :: (if down then '-' else '+') :: (power ++ rest)).head?,
      isAsciiDigit c = false ∧ c ≠ '_' := by
    simp [isAsciiDigit]
  have read := readPower?_signed down some_digits all' ends
  cases fraction with
  | nil =>
      have none : readFraction? ('e' :: (if down then '-' else '+') :: (power ++ rest)) = none :=
        readFraction?_none (by simp)
      simp [readDecimal?, h.splitSign, h.read letter, none, read]
  | cons c others =>
      have point : ∀ d ∈ ('.' :: c :: others ++
          'e' :: (if down then '-' else '+') :: (power ++ rest)).head?,
          isAsciiDigit d = false ∧ d ≠ '_' := by
        simp [isAsciiDigit]
      have found := readFraction?_point (List.cons_ne_nil c others) all letter
      rw [List.isEmpty_cons, if_neg Bool.false_ne_true]
      simp only [List.cons_append] at point found ⊢
      simp [readDecimal?, h.splitSign, h.read point, found, read]

/-! ### Digits of a number -/

theorem isAsciiDigit_of_mem_toDigits {n : Nat} {c : Char} (h : c ∈ Nat.toDigits 10 n) :
    isAsciiDigit c = true := Nat.isDigit_of_mem_toDigits (by decide) (by decide) h

theorem ofDigits_toDigits (n : Nat) : ofDigits (Nat.toDigits 10 n) = n :=
  Nat.ofDigitChars_ten_toDigits

theorem ofDigits_append (s t : List Char) :
    ofDigits (s ++ t) = 10 ^ t.length * ofDigits s + ofDigits t :=
  (Nat.ofDigitChars_append 0).trans Nat.ofDigitChars_eq_ofDigitChars_zero

theorem ofDigits_replicate (n : Nat) : ofDigits (List.replicate n '0') = 0 :=
  Nat.ofDigitChars_replicate_zero

theorem exists_toDigits_eq_cons {n : Nat} (hn : 0 < n) :
    ∃ c others, Nat.toDigits 10 n = c :: others ∧ c ≠ '0' := by
  induction n using Nat.strong_induction_on with
  | _ n ih =>
      rw [Nat.toDigits_eq_if (by decide)]
      split_ifs with small
      · exact ⟨_, _, rfl, fun zero => Nat.ne_of_gt hn (Nat.digitChar_eq_zero.mp zero)⟩
      · obtain ⟨c, others, eq, nonzero⟩ := ih (n / 10) (by omega) (by omega)
        exact ⟨c, _, by rw [eq]; rfl, nonzero⟩

theorem isWhole_toDigits (n : Nat) : IsWhole (Nat.toDigits 10 n) where
  all _ := isAsciiDigit_of_mem_toDigits
  first := by
    rcases Nat.eq_zero_or_pos n with rfl | hn
    · exact Or.inl rfl
    · exact Or.inr (exists_toDigits_eq_cons hn)

/-- **Integers are read back.** -/
theorem readDecimal?_int {n : Int} (short : Binary64.decimalLength n.natAbs ≤ maxDigits)
    (ends : EndsNumber rest) :
    readDecimal? ((toString n).toList ++ rest) = some (.ok (.int n), rest) := by
  have written : (toString n).toList = sign (decide (n < 0)) ++ Nat.toDigits 10 n.natAbs := by
    rw [Int.toString_eq_repr, Int.repr_eq_if]
    by_cases minus : n < 0
    · have magnitude : (-n).toNat = n.natAbs := by omega
      rw [if_neg (by omega), Nat.repr_eq_ofList_toDigits, magnitude, decide_eq_true minus]
      simp only [String.toList_append, String.toList_ofList]
      rfl
    · have magnitude : n.toNat = n.natAbs := by omega
      rw [if_pos (by omega), Nat.repr_eq_ofList_toDigits, String.toList_ofList, magnitude,
        decide_eq_false minus]
      rfl
  have value : (if decide (n < 0) then -(n.natAbs : Int) else n.natAbs) = n := by
    simp only [decide_eq_true_eq]
    split_ifs <;> omega
  rw [written, List.append_assoc, readDecimal?_whole (isWhole_toDigits _) short ends,
    ofDigits_toDigits, value]

end Preferences.Toml

namespace Preferences.Binary64

open Numeral (isAsciiDigit ofDigits)
open Toml (EndsNumber IsWhole sign readDecimal? readDecimal?_point readDecimal?_power
  ofDigits_append ofDigits_replicate)

variable {digits rest : List Char} {negative : Bool} {place : Int}

/-! ### Layouts -/

/-- Digits without the zeros at their end, and those zeros. -/
theorem stripZeros_append (digits : List Char) :
    (stripZeros digits).1 ++ List.replicate (stripZeros digits).2 '0' = digits := by
  have zeros : digits.reverse.takeWhile (· == '0') =
      List.replicate (digits.reverse.takeWhile (· == '0')).length '0' :=
    List.eq_replicate_of_mem fun c hc =>
      beq_iff_eq.mp (List.all_eq_true.mp List.all_takeWhile c hc)
  have split := congrArg List.reverse
    (@List.takeWhile_append_dropWhile _ (· == '0') digits.reverse)
  rw [List.reverse_append, List.reverse_reverse, zeros, List.reverse_replicate] at split
  unfold stripZeros
  dsimp only
  generalize (digits.reverse.takeWhile (· == '0')).length = count at split
  generalize (digits.reverse.dropWhile (· == '0')).reverse = others at split
  rw [← split, List.length_append, List.length_replicate, Nat.add_sub_cancel, List.take_left]

/-- The digits of a positive number. -/
structure Leading (digits : List Char) : Prop where
  all : ∀ c ∈ digits, isAsciiDigit c = true
  first : ∃ c others, digits = c :: others ∧ c ≠ '0'

theorem Leading.isWhole (h : Leading digits) {more : List Char}
    (all : ∀ c ∈ more, isAsciiDigit c = true) : IsWhole (digits ++ more) := by
  obtain ⟨c, others, rfl, nonzero⟩ := h.first
  exact ⟨List.forall_mem_append.mpr ⟨h.all, all⟩, Or.inr ⟨c, others ++ more, rfl, nonzero⟩⟩

theorem Leading.take (h : Leading digits) {k : Nat} (hk : 0 < k) : Leading (digits.take k) := by
  obtain ⟨c, others, rfl, nonzero⟩ := h.first
  obtain ⟨k, rfl⟩ := Nat.exists_eq_succ_of_ne_zero (Nat.ne_of_gt hk)
  exact ⟨fun d hd => h.all d (List.mem_of_mem_take hd), ⟨c, others.take k, rfl, nonzero⟩⟩

theorem isAsciiDigit_of_mem_replicate {k : Nat} :
    ∀ c ∈ List.replicate k '0', isAsciiDigit c = true := by
  intro c hc
  rw [List.eq_of_mem_replicate hc]
  rfl

/-- Zeros behind the digits are read as an exponent. -/
theorem ofDecimal_zeros (negative : Bool) (digits : List Char) (k : Nat) (e : Int) :
    ofDecimal negative (ofDigits (digits ++ List.replicate k '0')) e =
      ofDecimal negative (ofDigits digits) (e + k) := by
  rw [ofDigits_append, ofDigits_replicate, List.length_replicate, Nat.add_zero, Nat.mul_comm]
  exact ofDecimal_mul_tenTo negative (ofDigits digits) k e

/-- Of a positive number the digits without the zeros at their end are not lost. -/
theorem leading_stripZeros {n : Nat} (hn : 0 < n) : Leading (stripZeros (Nat.toDigits 10 n)).1 := by
  have split := stripZeros_append (Nat.toDigits 10 n)
  obtain ⟨c, others, eq, nonzero⟩ := Toml.exists_toDigits_eq_cons hn
  refine ⟨fun d hd => Toml.isAsciiDigit_of_mem_toDigits (split ▸ List.mem_append_left _ hd), ?_⟩
  rw [eq] at split
  rw [eq]
  generalize (stripZeros (c :: others)).1 = kept at split
  cases kept with
  | nil =>
      refine absurd ?_ nonzero
      rw [List.nil_append] at split
      exact List.eq_of_mem_replicate (split ▸ List.mem_cons_self)
  | cons d kept =>
      obtain rfl : d = c := (List.cons.inj split).1
      exact ⟨_, _, rfl, nonzero⟩

/-- The text is a point among digits that stand for the number whose point is behind `place` of the
given ones. -/
def IsPointed (text digits : List Char) (place : Int) : Prop :=
  ∃ whole fraction, text = whole ++ '.' :: fraction ∧ IsWhole whole ∧ fraction ≠ [] ∧
    (∀ c ∈ fraction, isAsciiDigit c = true) ∧
    ∀ negative, ofDecimal negative (ofDigits (whole ++ fraction)) (-fraction.length) =
      ofDecimal negative (ofDigits digits) (place - digits.length)

/-- The point stands in front of all digits, perhaps with zeros between. -/
theorem isPointed_before (h : Leading digits) (small : place ≤ 0) :
    IsPointed (['0'] ++ '.' :: (List.replicate (-place).toNat '0' ++ digits)) digits place := by
  have zero : IsWhole ['0'] := ⟨by simp [isAsciiDigit], Or.inl rfl⟩
  have nonempty : List.replicate (-place).toNat '0' ++ digits ≠ [] := by
    obtain ⟨c, others, rfl, -⟩ := h.first
    simp
  refine ⟨_, _, rfl, zero, nonempty,
    List.forall_mem_append.mpr ⟨isAsciiDigit_of_mem_replicate, h.all⟩, fun negative => ?_⟩
  have value : ofDigits (['0'] ++ (List.replicate (-place).toNat '0' ++ digits)) =
      ofDigits digits := by
    show ofDigits (List.replicate ((-place).toNat + 1) '0' ++ digits) = ofDigits digits
    rw [ofDigits_append, ofDigits_replicate, Nat.mul_zero, Nat.zero_add]
  have exponent : (-((-place).toNat + digits.length : Nat) : Int) = place - digits.length := by
    omega
  rw [value, List.length_append, List.length_replicate, exponent]

/-- The point stands behind all digits, perhaps with zeros between, and has a zero behind it. -/
theorem isPointed_behind (h : Leading digits) (positive : 0 < place)
    (short : digits.length ≤ place.toNat) :
    IsPointed (digits ++ List.replicate (place.toNat - digits.length) '0' ++ '.' :: ['0'])
      digits place := by
  refine ⟨_, _, rfl, h.isWhole isAsciiDigit_of_mem_replicate, List.cons_ne_nil '0' [],
    by simp [isAsciiDigit], fun negative => ?_⟩
  have exponent : (-1 + (1 : Nat) + (place.toNat - digits.length : Nat) : Int) =
      place - digits.length := by omega
  rw [← exponent]
  exact (ofDecimal_zeros negative _ 1 (-1)).trans (ofDecimal_zeros negative digits _ _)

theorem isPointed_among (h : Leading digits) (positive : 0 < place)
    (long : place.toNat < digits.length) :
    IsPointed (digits.take place.toNat ++ '.' :: digits.drop place.toNat) digits place := by
  have leading : IsWhole (digits.take place.toNat ++ []) :=
    (h.take (by omega)).isWhole (List.forall_mem_nil _)
  rw [List.append_nil] at leading
  refine ⟨_, _, rfl, leading, mt List.drop_eq_nil_iff.mp (Nat.not_le.mpr long),
    fun c hc => h.all c (List.mem_of_mem_drop hc), fun negative => ?_⟩
  have exponent : (-(digits.length - place.toNat : Nat) : Int) = place - digits.length := by
    omega
  rw [List.take_append_drop, List.length_drop, exponent]

theorem isPointed_positional (h : Leading digits) (place : Int) :
    IsPointed (positional digits place) digits place := by
  unfold positional
  dsimp only
  split_ifs with small whole
  · exact isPointed_before h small
  · have short : digits.length ≤ place.toNat :=
      List.drop_eq_nil_iff.mp (List.isEmpty_iff.mp whole)
    rw [List.take_of_length_le short]
    exact isPointed_behind h (Int.not_le.mp small) short
  · have long : place.toNat < digits.length := by
      rwa [List.isEmpty_iff, List.drop_eq_nil_iff, Nat.not_le] at whole
    have before : (digits.take place.toNat).length = place.toNat :=
      List.length_take_of_le (Nat.le_of_lt long)
    rw [before, Nat.sub_self, List.replicate_zero, List.append_nil]
    exact isPointed_among h (Int.not_le.mp small) long

/-- A positional number is read as its digits and the place of its point say. -/
theorem readDecimal?_positional (h : Leading digits) (ends : EndsNumber rest) :
    readDecimal? (sign negative ++ (positional digits place ++ rest)) =
      some (.ok (.float (ofDecimal negative (ofDigits digits) (place - digits.length))), rest) := by
  obtain ⟨whole, fraction, layout, leading, nonempty, all, value⟩ := isPointed_positional h place
  have read := readDecimal?_point negative leading nonempty all ends
  rw [value negative] at read
  rw [layout, List.append_assoc]
  exact read

theorem readDecimal?_scientific (h : Leading digits) (ends : EndsNumber rest) :
    readDecimal? (sign negative ++ (scientific digits (place - 1) ++ rest)) =
      some (.ok (.float (ofDecimal negative (ofDigits digits) (place - digits.length))), rest) := by
  obtain ⟨c, others, rfl, nonzero⟩ := h.first
  obtain ⟨first, more⟩ := List.forall_mem_cons.mp h.all
  have whole : IsWhole [c] := ⟨by simpa using first, Or.inr ⟨c, [], rfl, nonzero⟩⟩
  have point : (if (c :: others).length ≤ 1 then [] else '.' :: (c :: others).drop 1) =
      if others.isEmpty then [] else '.' :: others := by
    cases others <;> rfl
  have power : ∀ d ∈ List.replicate (2 - (Nat.toDigits 10 (place - 1).natAbs).length) '0' ++
      Nat.toDigits 10 (place - 1).natAbs, isAsciiDigit d = true :=
    List.forall_mem_append.mpr
      ⟨isAsciiDigit_of_mem_replicate, fun _ => Toml.isAsciiDigit_of_mem_toDigits⟩
  have nonempty : List.replicate (2 - (Nat.toDigits 10 (place - 1).natAbs).length) '0' ++
      Nat.toDigits 10 (place - 1).natAbs ≠ [] := by
    simp [Nat.toDigits_ne_nil]
  have value : ofDigits (List.replicate (2 - (Nat.toDigits 10 (place - 1).natAbs).length) '0' ++
      Nat.toDigits 10 (place - 1).natAbs) = (place - 1).natAbs := by
    rw [ofDigits_append, ofDigits_replicate, Nat.mul_zero, Nat.zero_add, Toml.ofDigits_toDigits]
  have read := fun down : Bool => readDecimal?_power negative down
    whole more nonempty power ends
  simp only [value] at read
  unfold scientific
  dsimp only
  rw [point]
  by_cases minus : place - 1 < 0
  · have exponent : -((place - 1).natAbs : Int) - others.length = place - (c :: others).length := by
      rw [List.length_cons]
      omega
    rw [if_pos minus, ← exponent]
    simpa using read true
  · have exponent : ((place - 1).natAbs : Int) - others.length = place - (c :: others).length := by
      rw [List.length_cons]
      omega
    rw [if_neg minus, ← exponent]
    simpa using read false

theorem readDecimal?_magnitudeText {x : Binary64} (finite : x.word.val < infiniteWord)
    (nonzero : x.word.val ≠ 0) (ends : EndsNumber rest) :
    readDecimal? (sign x.negative ++ (x.magnitudeText ++ rest)) = some (.ok (.float x), rest) := by
  obtain ⟨back, positive⟩ := ofDecimal_shortest finite nonzero
  have leading := leading_stripZeros positive
  have value : ofDecimal x.negative (ofDigits (stripZeros (Nat.toDigits 10 x.shortest.1)).1)
      (x.shortest.2 + (stripZeros (Nat.toDigits 10 x.shortest.1)).2) = x := by
    rw [← ofDecimal_zeros, stripZeros_append, Toml.ofDigits_toDigits, back]
  unfold magnitudeText
  dsimp only
  generalize stripZeros (Nat.toDigits 10 x.shortest.1) = stripped at leading value
  have exponent : (stripped.1.length + stripped.2 + x.shortest.2 : Int) - stripped.1.length =
      x.shortest.2 + stripped.2 := by omega
  split_ifs
  · rw [readDecimal?_positional leading ends, exponent, value]
  · rw [readDecimal?_scientific leading ends, exponent, value]

/-- **Finite numbers are read back.** -/
theorem readDecimal?_text {x : Binary64} (finite : x.word.val < infiniteWord)
    (ends : EndsNumber rest) : readDecimal? (x.text ++ rest) = some (.ok (.float x), rest) := by
  have number : x.isNaN = false := by simp [isNaN, Nat.le_of_lt finite]
  have bounded : x.isInfinite = false := by simp [isInfinite, Nat.ne_of_lt finite]
  have layout : x.text =
      sign x.negative ++ (if x.isZero then "0.0".toList else x.magnitudeText) := by
    rw [text, number, bounded, if_neg Bool.false_ne_true, if_neg Bool.false_ne_true]
    rfl
  rw [layout, List.append_assoc]
  by_cases zero : x.isZero = true
  · have word : x.word.val = 0 := by simpa [isZero] using zero
    have value : ofDecimal x.negative (ofDigits (['0'] ++ ['0'])) (-['0'].length) = x := by
      have same := ofWord_word (Nat.le_of_lt finite)
      rw [word] at same
      exact same
    have whole : IsWhole ['0'] := ⟨by simp [isAsciiDigit], Or.inl rfl⟩
    have read := readDecimal?_point x.negative whole (List.cons_ne_nil '0' [])
      (by simp [isAsciiDigit]) ends
    rw [value] at read
    rw [if_pos zero]
    exact read
  · rw [if_neg zero]
    exact readDecimal?_magnitudeText finite (by simpa [isZero] using zero) ends

end Preferences.Binary64

import Mathlib.Algebra.Group.Nat.Defs
import Mathlib.Data.List.Basic
import Mathlib.Tactic.SplitIfs
import Preferences.Naming.SnakeCase

/-! # What lower case leaves

A character that a lower case consists of is its own lower case (`isLowered_of_mem_lower`), so a
text of such characters stays as it is (`lower_eq_self`); and it separates words only if it was
there before (`mem_of_mem_lower`).  Both come from the tables: the code points that are mapped to
are none of those that are mapped, and none of a separator (`images_apart`), which is checked for
all of them at once, on sets of code points written as the bits of a number.  The first 128
characters are lowered one by one (`lower_eq_map`). -/

namespace Preferences.Text

/-! ### Sets of numbers -/

/-- A set of numbers as the number that has these bits. -/
def bits (ns : List Nat) : Nat := ns.foldr (fun n rest => 1 <<< n ||| rest) 0

theorem testBit_bits {ns : List Nat} {n : Nat} : (bits ns).testBit n = true ↔ n ∈ ns := by
  induction ns with
  | nil => simp [bits]
  | cons first rest ih =>
      rw [bits, List.foldr_cons, Nat.testBit_or, Bool.or_eq_true, List.mem_cons, Nat.one_shiftLeft,
        Nat.testBit_two_pow, decide_eq_true_eq, ← ih, bits, eq_comm]

/-- The union of the sets of several things. -/
def bitsIn {α : Type} (codes : α → List Nat) (xs : List α) : Nat :=
  xs.foldr (fun x rest => bits (codes x) ||| rest) 0

theorem testBit_bitsIn {α : Type} {codes : α → List Nat} {xs : List α} {n : Nat} :
    (bitsIn codes xs).testBit n = true ↔ ∃ x ∈ xs, n ∈ codes x := by
  induction xs with
  | nil => simp [bitsIn]
  | cons first rest ih =>
      rw [bitsIn, List.foldr_cons, Nat.testBit_or, Bool.or_eq_true, testBit_bits,
        List.exists_mem_cons_iff, ← ih, bitsIn]

theorem apart_of_land_eq_zero {a b n : Nat} (h : a &&& b = 0) (ha : a.testBit n = true) :
    ¬b.testBit n = true := by
  intro hb
  have both := Nat.testBit_and a b n
  rw [h, ha, hb, Nat.zero_testBit] at both
  cases both

/-! ### The tables -/

namespace CaseRun

variable {r : CaseRun} {n m : Nat}

/-- The number of code points that the run maps. -/
def size (r : CaseRun) : Nat := (r.last - r.first) / r.stride + 1

def sources (r : CaseRun) : List Nat := (List.range r.size).map (r.first + r.stride * ·)

def images (r : CaseRun) : List Nat := (List.range r.size).map (r.image + r.stride * ·)

theorem mem_of_imageOf? (h : r.imageOf? n = some m) : n ∈ r.sources ∧ m ∈ r.images := by
  obtain ⟨⟨⟨low, high⟩, step⟩, rfl⟩ :
      ((r.first ≤ n ∧ n ≤ r.last) ∧ (n - r.first) % r.stride = 0) ∧
        r.image + (n - r.first) = m := by
    simpa [imageOf?] using h
  have reached : r.stride * ((n - r.first) / r.stride) = n - r.first :=
    Nat.mul_div_cancel' (Nat.dvd_of_mod_eq_zero step)
  have within : (n - r.first) / r.stride < r.size :=
    Nat.lt_succ_of_le (Nat.div_le_div_right (Nat.sub_le_sub_right high _))
  refine ⟨List.mem_map.mpr ⟨_, List.mem_range.mpr within, ?_⟩,
    List.mem_map.mpr ⟨_, List.mem_range.mpr within, ?_⟩⟩
  · rw [reached, Nat.add_sub_cancel' low]
  · rw [reached]

end CaseRun

def codesOf (range : Nat × Nat) : List Nat := List.range' range.1 (range.2 + 1 - range.1)

theorem CodeRanges.has_iff {ranges : CodeRanges} {c : Char} :
    ranges.has c = true ↔ ∃ range ∈ ranges, c.toNat ∈ codesOf range := by
  simp only [CodeRanges.has, List.any_eq_true, Bool.and_eq_true, decide_eq_true_eq, codesOf,
    List.mem_range'_1]
  refine exists_congr fun range => and_congr_right fun _ => ?_
  omega

end Preferences.Text

namespace Preferences.Naming

open Preferences.Text

variable {c d : Char} {n : Nat} {s : List Char}

def lowerSources : Nat := bitsIn CaseRun.sources lowerRuns ||| bits (lowerSequences.map Prod.fst)

def lowerImages : Nat := bitsIn CaseRun.images lowerRuns ||| bitsIn Prod.snd lowerSequences

def separators : Nat := bitsIn codesOf blanks ||| bits ['-'.toNat, '.'.toNat]

/-- Lower case maps nothing to a character that it maps, nor to a separator. -/
theorem images_apart : lowerImages &&& (lowerSources ||| separators) = 0 := by decide +kernel

theorem not_source_of_image (h : lowerImages.testBit n = true) : ¬lowerSources.testBit n = true :=
  fun source => apart_of_land_eq_zero images_apart h (by simp [Nat.testBit_or, source])

theorem testBit_separators (h : isSeparator c = true) : separators.testBit c.toNat = true := by
  rw [separators, Nat.testBit_or, Bool.or_eq_true, testBit_bitsIn, testBit_bits]
  rw [isSeparator, Bool.or_eq_true, Bool.or_eq_true, beq_iff_eq, beq_iff_eq, or_assoc] at h
  refine h.imp CodeRanges.has_iff.mp fun either => ?_
  rcases either with rfl | rfl <;> simp

/-- Lower case leaves the character as it is. -/
def IsLowered (c : Char) : Prop := mapCase lowerRuns lowerSequences c = [c]

instance (c : Char) : Decidable (IsLowered c) :=
  inferInstanceAs (Decidable (mapCase lowerRuns lowerSequences c = [c]))

theorem isLowered_of_not_source (h : ¬lowerSources.testBit c.toNat = true) : IsLowered c := by
  rw [lowerSources, Nat.testBit_or, Bool.or_eq_true, testBit_bitsIn, testBit_bits, not_or] at h
  have unmapped : lowerRuns.findSome? (·.imageOf? c.toNat) = none := by
    rw [List.findSome?_eq_none_iff]
    intro r hr
    refine Option.eq_none_iff_forall_not_mem.mpr fun m hm => ?_
    exact h.1 ⟨r, hr, (CaseRun.mem_of_imageOf? hm).1⟩
  have unlisted : lowerSequences.lookup c.toNat = none := by
    refine List.lookup_eq_none_iff.mpr fun entry member => ?_
    exact bne_iff_ne.mpr fun same => h.2 (same ▸ List.mem_map_of_mem member)
  simp only [IsLowered, mapCase, unmapped, unlisted]

/-- Only the capitals of the first 128 characters are mapped. -/
theorem lowerSources_mod : lowerSources % 2 ^ 128 = bits (List.range' 65 26) := by decide +kernel

theorem isLowered_of_lt (h : c.toNat < 128) (other : isCapital c = false) : IsLowered c := by
  refine isLowered_of_not_source fun source => Bool.eq_false_iff.mp other (isCapital_iff.mpr ?_)
  have low : (lowerSources % 2 ^ 128).testBit c.toNat = true := by
    rw [Nat.testBit_mod_two_pow, source, decide_eq_true h, Bool.and_self]
  rw [lowerSources_mod, testBit_bits, List.mem_range'_1] at low
  omega

/-- A character in the other case of `c` is given by a code point that the tables map to, or it is
`c`, which they leave as it is. -/
theorem mem_mapCase {runs : List CaseRun} {sequences : List (Nat × List Nat)}
    (h : d ∈ mapCase runs sequences c) :
    (∃ n, (bitsIn CaseRun.images runs ||| bitsIn Prod.snd sequences).testBit n = true ∧
      d = Char.ofNat n) ∨ d = c ∧ mapCase runs sequences c = [c] := by
  unfold mapCase at h ⊢
  cases mapped : runs.findSome? (·.imageOf? c.toNat) with
  | some n =>
      obtain ⟨r, hr, found⟩ := List.exists_of_findSome?_eq_some mapped
      simp only [mapped, List.mem_singleton] at h
      refine Or.inl ⟨n, ?_, h⟩
      rw [Nat.testBit_or, Bool.or_eq_true, testBit_bitsIn]
      exact Or.inl ⟨r, hr, (CaseRun.mem_of_imageOf? found).2⟩
  | none =>
      cases listed : sequences.lookup c.toNat with
      | some ns =>
          simp only [mapped, listed, List.mem_map] at h
          obtain ⟨n, hn, rfl⟩ := h
          obtain ⟨before, after, split, -⟩ := List.lookup_eq_some_iff.mp listed
          refine Or.inl ⟨n, ?_, rfl⟩
          rw [Nat.testBit_or, Bool.or_eq_true, testBit_bitsIn, testBit_bitsIn]
          exact Or.inr ⟨(c.toNat, ns), by simp [split], hn⟩
      | none =>
          simp only [mapped, listed, List.mem_singleton] at h
          exact Or.inr ⟨h, rfl⟩

/-- A number that is no code point stands for the character with the code point zero. -/
theorem toNat_ofNat_or (n : Nat) : (Char.ofNat n).toNat = n ∨ Char.ofNat n = '\x00' := by
  by_cases valid : n.isValidChar
  · refine Or.inl ?_
    rw [Char.ofNat, dif_pos valid]
    rfl
  · exact Or.inr (dif_neg valid)

theorem isLowered_null : IsLowered '\x00' := isLowered_of_lt (by decide) (by decide)

theorem isLowered_of_mem_mapCase (h : d ∈ mapCase lowerRuns lowerSequences c) : IsLowered d := by
  rcases mem_mapCase h with ⟨n, image, rfl⟩ | ⟨rfl, lowered⟩
  · rcases toNat_ofNat_or n with code | null
    · exact isLowered_of_not_source (by rw [code]; exact not_source_of_image image)
    · rw [null]
      exact isLowered_null
  · exact lowered

theorem eq_of_isSeparator_of_mem (separator : isSeparator d = true)
    (h : d ∈ mapCase lowerRuns lowerSequences c) : d = c := by
  rcases mem_mapCase h with ⟨n, image, rfl⟩ | ⟨same, -⟩
  · have code := (toNat_ofNat_or n).resolve_right fun null => by
      rw [null] at separator
      exact absurd separator (by decide)
    have member := testBit_separators separator
    rw [code] at member
    exact absurd (by simp [Nat.testBit_or, member]) (apart_of_land_eq_zero images_apart image)
  · exact same

/-! ### Texts -/

theorem isLowered_sigmas : ¬IsLowered 'Σ' ∧ IsLowered 'σ' ∧ IsLowered 'ς' := by decide

/-- What a character becomes within a text is lowered, and a separator only if it is one itself. -/
theorem mem_lowerBetween {before after : List Char} (h : d ∈ lowerBetween before c after) :
    IsLowered d ∧ (isSeparator d = true → d = c) := by
  unfold lowerBetween at h
  split_ifs at h
  · obtain rfl := List.mem_singleton.mp h
    exact ⟨isLowered_sigmas.2.2, fun separator => absurd separator (by decide)⟩
  · obtain rfl := List.mem_singleton.mp h
    exact ⟨isLowered_sigmas.2.1, fun separator => absurd separator (by decide)⟩
  · exact ⟨isLowered_of_mem_mapCase h, fun separator => eq_of_isSeparator_of_mem separator h⟩

theorem mem_lowerAfter {before : List Char} (h : d ∈ lowerAfter before s) :
    IsLowered d ∧ (isSeparator d = true → d ∈ s) := by
  induction s generalizing before with
  | nil => cases h
  | cons c after ih =>
      rcases List.mem_append.mp h with now | later
      · obtain ⟨lowered, same⟩ := mem_lowerBetween now
        exact ⟨lowered, fun separator => same separator ▸ List.mem_cons_self⟩
      · obtain ⟨lowered, there⟩ := ih later
        exact ⟨lowered, fun separator => List.mem_cons_of_mem _ (there separator)⟩

theorem isLowered_of_mem_lower (h : d ∈ lower s) : IsLowered d := (mem_lowerAfter h).1

theorem mem_of_mem_lower (h : d ∈ lower s) (separator : isSeparator d = true) : d ∈ s :=
  (mem_lowerAfter h).2 separator

theorem lowerAfter_eq_self (lowered : ∀ c ∈ s, IsLowered c) (before : List Char) :
    lowerAfter before s = s := by
  induction s generalizing before with
  | nil => rfl
  | cons c after ih =>
      obtain ⟨first, rest⟩ := List.forall_mem_cons.mp lowered
      have other : c ≠ 'Σ' := by
        rintro rfl
        exact isLowered_sigmas.1 first
      rw [lowerAfter, lowerBetween, if_neg other, ih rest, first, List.singleton_append]

theorem lower_eq_self (lowered : ∀ c ∈ s, IsLowered c) : lower s = s :=
  lowerAfter_eq_self lowered []

/-! ### The first 128 characters -/

theorem mapCase_of_isCapital (capital : isCapital c = true) :
    mapCase lowerRuns lowerSequences c = [c.toLower] ∧ c.toLower ≠ c :=
  of_codes (P := fun c => mapCase lowerRuns lowerSequences c = [c.toLower] ∧ c.toLower ≠ c)
    (by decide) (isCapital_iff.mp capital)

theorem toLower_of_not_isCapital (other : isCapital c = false) : c.toLower = c := by
  refine dif_neg fun range => Bool.eq_false_iff.mp other ?_
  simpa [isCapital, Char.le_def, and_comm] using range

theorem mapCase_of_lt (h : c.toNat < 128) : mapCase lowerRuns lowerSequences c = [c.toLower] := by
  cases capital : isCapital c with
  | true => exact (mapCase_of_isCapital capital).1
  | false => rw [toLower_of_not_isCapital capital]; exact isLowered_of_lt h capital

theorem not_isCapital_of_isLowered (lowered : IsLowered c) : isCapital c = false := by
  refine Bool.eq_false_iff.mpr fun capital => ?_
  obtain ⟨image, other⟩ := mapCase_of_isCapital capital
  exact other (List.singleton_inj.mp (image.symm.trans lowered))

theorem lowerAfter_eq_map (ascii : ∀ c ∈ s, c.toNat < 128) (before : List Char) :
    lowerAfter before s = s.map Char.toLower := by
  induction s generalizing before with
  | nil => rfl
  | cons c after ih =>
      obtain ⟨first, rest⟩ := List.forall_mem_cons.mp ascii
      have other : c ≠ 'Σ' := by
        rintro rfl
        exact absurd first (by decide)
      rw [lowerAfter, lowerBetween, if_neg other, ih rest, mapCase_of_lt first, List.map_cons,
        List.singleton_append]

/-- Texts of the first 128 characters are lowered letter by letter. -/
theorem lower_eq_map (ascii : ∀ c ∈ s, c.toNat < 128) : lower s = s.map Char.toLower :=
  lowerAfter_eq_map ascii []

end Preferences.Naming

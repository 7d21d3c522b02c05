import Mathlib.Algebra.Order.Floor.Semifield
import Preferences.Proofs.Number.Written
import Preferences.Proofs.Value.Distinct
import Preferences.Store.Kind

/-! # What each kind stores

`Kind.Stores` says for each of the five kinds what is stored for a value that is written by it,
whatever kind the value itself is of: the truth value of anything; the integer or the floating-point
number that a number is or a text writes; the text of anything that can be written; the set of what
a value has as elements, if they can be members of one.  Nothing written as a text or as a set is
not stored but removes what there is.  What a kind converts a value to is this
(`Kind.stores_of_convert`), and it refuses only what nothing is stored for
(`Kind.Stores.exists_convert`). -/

namespace Preferences

/-- The value is nothing, false, zero or empty. -/
inductive Value.IsVoid : Value → Prop
  | null : IsVoid .null
  | false : IsVoid (.bool false)
  | zero : IsVoid (.int 0)
  | float {x} (zero : x.word.val = 0) : IsVoid (.float x)
  | text : IsVoid (.text "")
  | list : IsVoid (.list [])
  | table : IsVoid (.table [])
  | set : IsVoid (.set [])
  | frozenset : IsVoid (.frozenset [])

/-- The integer is the number without what is behind its point. -/
structure Binary64.IsTruncated (x : Binary64) (n : Int) : Prop where
  finite : x.IsFinite
  low : (n.natAbs : ℚ) ≤ x.magnitude
  high : x.magnitude < n.natAbs + 1
  sign : n ≠ 0 → x.negative = decide (n < 0)

namespace Store

/-- The integer that a value is or writes. -/
inductive IsInteger : Value → Int → Prop
  | false : IsInteger (.bool false) 0
  | true : IsInteger (.bool true) 1
  | int (n : Int) : IsInteger (.int n) n
  | float {x n} (truncated : x.IsTruncated n) : IsInteger (.float x) n
  | text {s n} (writes : Numeral.WritesInt s.toList n) : IsInteger (.text s) n

/-- The floating-point number that a value is, writes, or is rounded to. -/
inductive IsFloat : Value → Binary64 → Prop
  | false {x} (rounds : x.Rounds false 0) : IsFloat (.bool false) x
  | true {x} (rounds : x.Rounds false 1) : IsFloat (.bool true) x
  | int {n : Int} {x} (bounded : (n.natAbs : ℚ) < Binary64.overflow)
    (rounds : x.Rounds (decide (n < 0)) n.natAbs) : IsFloat (.int n) x
  | float (x : Binary64) : IsFloat (.float x) x
  | text {s x} (writes : Numeral.WritesFloat s.toList x) : IsFloat (.text s) x

/-- What a walk through a value meets. -/
inductive HasElements : Value → List Value → Prop
  | list (items : List Value) : HasElements (.list items) items
  | set (items : List Value) : HasElements (.set items) items
  | frozenset (items : List Value) : HasElements (.frozenset items) items
  | table (entries : List (Value × Value)) : HasElements (.table entries) (entries.map Prod.fst)
  | text (s : String) : HasElements (.text s) (s.toList.map fun c => .text (String.singleton c))

/-- The members are elements that can be members, no two of them are the same, and every element is
the same as one of them. -/
structure AreMembers (elements members : List Value) : Prop where
  keys : ∀ v ∈ elements, v.isKey = true
  among : members.Sublist elements
  distinct : members.Pairwise fun v w => v.same w = false
  all : ∀ v ∈ elements, ∃ w ∈ members, w.same v = true

/-- What is stored for a value that is written by a kind; nothing where that is a removal. -/
inductive Kind.Stores : (kind : Kind) → (v : Value) → (stored? : Option Value) → Prop
  | bool {v b} (truth : b = false ↔ v.IsVoid) : Stores .bool v (some (.bool b))
  | int {v n} (h : IsInteger v n) : Stores .int v (some (.int n))
  | float {v x} (h : IsFloat v x) : Stores .float v (some (.float x))
  | noText : Stores .text .null none
  | text {v} (some_value : v ≠ .null) (writable : v.isWritable = true) :
    Stores .text v (some (.text v.plain))
  | noSet : Stores .textSet .null none
  | set {v elements members} (h : HasElements v elements) (kept : AreMembers elements members) :
    Stores .textSet v (some (.frozenset members))

end Store

/-! ### Truth values -/

theorem Value.isTruthy_eq_false_iff {v : Value} : v.isTruthy = false ↔ v.IsVoid := by
  constructor
  · intro h
    cases v with
    | null => exact .null
    | bool b =>
        obtain rfl : b = false := h
        exact .false
    | int n =>
        obtain rfl : n = 0 := by simpa [isTruthy] using h
        exact .zero
    | float x => exact .float (by simpa [isTruthy, Binary64.isZero] using h)
    | text s =>
        obtain rfl : s = "" := by simpa [isTruthy] using h
        exact .text
    | list items =>
        obtain rfl : items = [] := by simpa [isTruthy] using h
        exact .list
    | table entries =>
        obtain rfl : entries = [] := by simpa [isTruthy] using h
        exact .table
    | set items =>
        obtain rfl : items = [] := by simpa [isTruthy] using h
        exact .set
    | frozenset items =>
        obtain rfl : items = [] := by simpa [isTruthy] using h
        exact .frozenset
    | date | time | datetime => cases h
  · intro h
    cases h with
    | float zero => simp [isTruthy, Binary64.isZero, zero]
    | _ => rfl

/-! ### Numbers without what is behind their point -/

namespace Binary64

variable {x : Binary64} {n : Int}

theorem isFinite_iff : x.IsFinite ↔ x.isNaN = false ∧ x.isInfinite = false := by
  simp only [IsFinite, isNaN, isInfinite, decide_eq_false_iff_not, beq_eq_false_iff_ne]
  omega

theorem floor_magnitude (x : Binary64) : ⌊x.magnitude⌋₊ = x.ratio.1 / x.ratio.2 := by
  rw [← x.ratio_value.2]
  exact Nat.floor_div_eq_div x.ratio.1 x.ratio.2

theorem isTruncated_iff (finite : x.IsFinite) : x.IsTruncated n ↔ n = x.truncate := by
  have positive : 0 ≤ x.magnitude := by
    unfold magnitude
    positivity
  have floor : ∀ m : Nat,
      ((m : ℚ) ≤ x.magnitude ∧ x.magnitude < m + 1) ↔ m = x.ratio.1 / x.ratio.2 := by
    intro m
    rw [← Nat.floor_eq_iff positive, floor_magnitude, eq_comm]
  unfold truncate
  dsimp only
  generalize x.ratio.1 / x.ratio.2 = q at floor
  constructor
  · rintro ⟨-, low, high, sign⟩
    have whole := (floor n.natAbs).mp ⟨low, high⟩
    rcases eq_or_ne n 0 with rfl | nonzero
    · obtain rfl : q = 0 := whole.symm
      simp
    · rw [sign nonzero]
      simp only [decide_eq_true_eq]
      split_ifs <;> omega
  · intro value
    have whole : n.natAbs = q := by
      rw [value]
      split_ifs <;> simp
    obtain ⟨low, high⟩ := (floor n.natAbs).mpr whole
    refine ⟨finite, low, high, fun nonzero => ?_⟩
    rw [value] at nonzero ⊢
    cases x.negative <;> simp at nonzero ⊢
    omega

end Binary64

namespace Store

variable {kind : Kind} {v : Value} {n : Int} {x : Binary64} {items : List Value}
  {stored? : Option Value}

theorem toInt_eq_ok_iff : Kind.toInt v = .ok n ↔ IsInteger v n := by
  constructor
  · intro h
    cases v with
    | bool b =>
        obtain rfl := Except.ok.inj h
        cases b
        · exact .false
        · exact .true
    | int m =>
        obtain rfl := Except.ok.inj h
        exact .int m
    | float x =>
        simp only [Kind.toInt] at h
        split_ifs at h with nan infinite
        have finite := Binary64.isFinite_iff.mpr
          ⟨Bool.eq_false_iff.mpr nan, Bool.eq_false_iff.mpr infinite⟩
        exact .float ((Binary64.isTruncated_iff finite).mpr (Except.ok.inj h).symm)
    | text s =>
        simp only [Kind.toInt] at h
        split at h
        · next m read =>
            obtain rfl := Except.ok.inj h
            exact .text (Numeral.readInt?_eq_some_iff.mp read)
        · cases h
    | _ => cases h
  · intro h
    cases h with
    | float truncated =>
        obtain ⟨number, bounded⟩ := Binary64.isFinite_iff.mp truncated.finite
        rw [(Binary64.isTruncated_iff truncated.finite).mp truncated]
        simp [Kind.toInt, number, bounded]
    | text writes => simp [Kind.toInt, Numeral.readInt?_eq_some_iff.mpr writes]
    | _ => rfl

theorem nearest_eq_ok_iff {n : Int} : Kind.nearest n = .ok x ↔
    (n.natAbs : ℚ) < Binary64.overflow ∧ x.Rounds (decide (n < 0)) n.natAbs := by
  rw [← Binary64.ofInt?_eq_some_iff]
  unfold Kind.nearest
  cases Binary64.ofInt? n <;> simp

theorem toFloat_eq_ok_iff : Kind.toFloat v = .ok x ↔ IsFloat v x := by
  have one := Binary64.one_lt_overflow
  constructor
  · intro h
    cases v with
    | bool b =>
        obtain ⟨-, rounds⟩ := nearest_eq_ok_iff.mp h
        cases b
        · exact .false rounds
        · exact .true rounds
    | int m =>
        obtain ⟨bounded, rounds⟩ := nearest_eq_ok_iff.mp h
        exact .int bounded rounds
    | float y =>
        obtain rfl := Except.ok.inj h
        exact .float y
    | text s =>
        simp only [Kind.toFloat] at h
        split at h
        · next y read =>
            obtain rfl := Except.ok.inj h
            exact .text (Numeral.readFloat?_eq_some_iff.mp read)
        · cases h
    | _ => cases h
  · intro h
    cases h with
    | false rounds =>
        exact (nearest_eq_ok_iff (n := 0)).mpr ⟨by simpa using one_pos.trans one, rounds⟩
    | true rounds => exact (nearest_eq_ok_iff (n := 1)).mpr ⟨by simpa using one, rounds⟩
    | int bounded rounds => exact nearest_eq_ok_iff.mpr ⟨bounded, rounds⟩
    | float y => rfl
    | text writes => simp [Kind.toFloat, Numeral.readFloat?_eq_some_iff.mpr writes]

theorem elements_eq_ok_iff : v.elements = .ok items ↔ HasElements v items := by
  constructor
  · intro h
    cases v with
    | list | set | frozenset | table | text =>
        obtain rfl := Except.ok.inj h
        constructor
    | _ => cases h
  · intro h
    cases h <;> rfl

theorem toSet_eq_ok_iff :
    Kind.toSet v = .ok items ↔ ∃ elements, HasElements v elements ∧
      (∀ w ∈ elements, w.isKey = true) ∧ items = Value.distinct elements := by
  unfold Kind.toSet
  constructor
  · intro h
    cases walk : v.elements with
    | error misuse =>
        rw [walk] at h
        cases h
    | ok elements =>
        simp only [walk, bind, Except.bind] at h
        split_ifs at h with keys
        exact ⟨elements, elements_eq_ok_iff.mp walk, List.all_eq_true.mp keys,
          (Except.ok.inj h).symm⟩
  · rintro ⟨elements, walk, keys, rfl⟩
    simp only [elements_eq_ok_iff.mpr walk, bind, Except.bind]
    exact if_pos (List.all_eq_true.mpr keys)

theorem areMembers_distinct (keys : ∀ w ∈ items, w.isKey = true) :
    AreMembers items (Value.distinct items) where
  keys := keys
  among := Value.distinct_sublist items
  distinct := Value.pairwise_distinct items
  all _ := Value.exists_same_of_mem

theorem map_eq_ok_iff {α : Type} {converted : Except Misuse α} {f : α → Value} :
    (converted.map fun a => some (f a)) = .ok stored? ↔
      ∃ a, converted = .ok a ∧ stored? = some (f a) := by
  cases converted with
  | error misuse => simp [Except.map]
  | ok a => simp [Except.map, eq_comm]

namespace Kind

theorem convert_text_of_ne (some_value : v ≠ .null) :
    text.convert v = if v.isWritable then .ok (some (.text v.plain)) else .error .unwritable := by
  have course : text.convert v = (do
      Value.requireWritable [v]
      return some (.text v.plain)) := by
    cases v <;> first | rfl | exact absurd rfl some_value
  rw [course]
  unfold Value.requireWritable
  cases writable : v.isWritable <;> simp [writable, bind, Except.bind, pure, Except.pure]

theorem convert_textSet_of_ne (some_value : v ≠ .null) :
    textSet.convert v = (toSet v).map fun items => some (.frozenset items) := by
  cases v <;> first | rfl | exact absurd rfl some_value

/-- **What a kind converts a value to is what it stores for it.** -/
theorem stores_of_convert (h : kind.convert v = .ok stored?) : kind.Stores v stored? := by
  cases kind with
  | bool =>
      obtain rfl := Except.ok.inj h
      exact .bool Value.isTruthy_eq_false_iff
  | int =>
      obtain ⟨n, converted, rfl⟩ := map_eq_ok_iff.mp h
      exact .int (toInt_eq_ok_iff.mp converted)
  | float =>
      obtain ⟨x, converted, rfl⟩ := map_eq_ok_iff.mp h
      exact .float (toFloat_eq_ok_iff.mp converted)
  | text =>
      rcases eq_or_ne v .null with rfl | some_value
      · obtain rfl := Except.ok.inj h
        exact .noText
      · rw [convert_text_of_ne some_value] at h
        split_ifs at h with writable
        obtain rfl := Except.ok.inj h
        exact .text some_value writable
  | textSet =>
      rcases eq_or_ne v .null with rfl | some_value
      · obtain rfl := Except.ok.inj h
        exact .noSet
      · rw [convert_textSet_of_ne some_value] at h
        obtain ⟨items, converted, rfl⟩ := map_eq_ok_iff.mp h
        obtain ⟨elements, walk, keys, rfl⟩ := toSet_eq_ok_iff.mp converted
        exact .set walk (areMembers_distinct keys)

/-- **A kind refuses only what it stores nothing for.**  What it stores is told exactly, up to the
order of a set and the choice of its members among those that are the same. -/
theorem Stores.exists_convert (h : kind.Stores v stored?) :
    ∃ converted?, kind.convert v = .ok converted? ∧ (kind ≠ .textSet → converted? = stored?) := by
  cases h with
  | @bool _ b truth =>
      have same : v.isTruthy = b := by
        rw [← Value.isTruthy_eq_false_iff] at truth
        cases b <;> simp_all
      exact ⟨_, rfl, fun _ => by rw [same]⟩
  | int h => exact ⟨_, map_eq_ok_iff.mpr ⟨_, toInt_eq_ok_iff.mpr h, rfl⟩, fun _ => rfl⟩
  | float h => exact ⟨_, map_eq_ok_iff.mpr ⟨_, toFloat_eq_ok_iff.mpr h, rfl⟩, fun _ => rfl⟩
  | noText | noSet => exact ⟨_, rfl, fun _ => rfl⟩
  | text some_value writable =>
      exact ⟨_, (convert_text_of_ne some_value).trans (if_pos writable), fun _ => rfl⟩
  | set walk kept =>
      have some_value : v ≠ .null := by
        rintro rfl
        cases walk
      rw [convert_textSet_of_ne some_value]
      exact ⟨_, map_eq_ok_iff.mpr ⟨_, toSet_eq_ok_iff.mpr ⟨_, walk, kept.keys, rfl⟩, rfl⟩,
        fun ne => absurd rfl ne⟩

end Kind

end Store

end Preferences

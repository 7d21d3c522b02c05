import Mathlib.Data.List.Basic
import Preferences.Proofs.Number.ExactInteger
import Preferences.Proofs.Value.SameSelf

/-! # Keys that count as the same

On keys `Value.same` is an equivalence: it is reflexive on all values, and symmetric and transitive
on keys in which every frozen set holds each of its members once (`same_symm`, `same_trans`).  Keys
without members are compared by what `comparand` makes of them (`sameAtom_iff`).  For frozen sets
symmetry and transitivity hang together, since each member has to find another one in a set of the
same size; so both are in one statement, `Faithful`, that goes from the members to the set
(`faithful_frozenset`). -/

namespace Preferences.Value

/-! ### Values without members -/

/-- What a value without members is compared by. -/
inductive Comparand
  | integer (n : Int)
  | moment (known : Bool) (instant : Int)
  | itself (v : Value)

/-- What the value is compared by: numbers by their integer if they are one, and times by the moment
that they name. -/
def comparand : Value → Comparand
  | bool b => .integer (if b then 1 else 0)
  | int n => .integer n
  | float x =>
    match x.integer? with
    | some n => .integer n
    | none => .itself (float x)
  | datetime t => .moment t.offset.isSome t.instant
  | v => .itself v

def isAtom : Value → Bool
  | list _ | table _ | set _ | frozenset _ => false
  | _ => true

section atoms
variable {v w : Value} {x y : Binary64}

theorem comparand_float_of_some {n : Int} (h : x.integer? = some n) :
    (float x).comparand = .integer n := by rw [comparand, h]

theorem comparand_float_of_none (h : x.integer? = none) :
    (float x).comparand = .itself (float x) := by rw [comparand, h]

theorem same_iff_comparand_eq :
    x.same y = true ↔ (float x).comparand = (float y).comparand := by
  cases hx : x.integer? with
  | some n =>
      rw [comparand_float_of_some hx]
      cases hy : y.integer? with
      | some m =>
          rw [comparand_float_of_some hy, Comparand.integer.injEq]
          constructor
          · intro same
            have equal := Binary64.integer?_eq_of_same same
            rw [hx, hy] at equal
            exact Option.some.inj equal
          · rintro rfl
            exact Binary64.same_of_integer? hx hy
      | none =>
          have differ : x.same y ≠ true := by
            intro same
            have equal := Binary64.integer?_eq_of_same same
            rw [hx, hy] at equal
            cases equal
          simp [comparand_float_of_none hy, differ]
  | none =>
      rw [comparand_float_of_none hx, Binary64.same_iff_of_integer?_eq_none hx]
      cases hy : y.integer? with
      | some m =>
          have differ : x ≠ y := by
            rintro rfl
            rw [hx] at hy
            cases hy
          simp [comparand_float_of_some hy, differ]
      | none => simp [comparand_float_of_none hy]

/-- Values without members are the same if they are compared by the same. -/
theorem sameAtom_iff (hv : v.isAtom = true) (hw : w.isAtom = true) :
    sameAtom v w = true ↔ v.comparand = w.comparand := by
  cases v with
  | float x =>
      cases w with
      | float y => exact same_iff_comparand_eq
      | bool | int | datetime | null | text | date | time =>
          cases hx : x.integer? <;>
            simp [sameAtom, asInt?, Binary64.sameInt_iff, hx, comparand]
      | _ => cases hw
  | null | bool | int | text | date | time | datetime => 
    cases w with
    | float y =>
        refine Iff.trans ?_ eq_comm
        cases hy : y.integer? <;>
          simp [sameAtom, asInt?, Binary64.sameInt_iff, hy, comparand]
    | null | bool | int | text | date | time | datetime =>
        simp [sameAtom, comparand, asInt?, DateTime.same]
    | _ => cases hw
  | _ => cases hv

theorem isAtom_of_sameAtom (hv : v.isAtom = true) (h : sameAtom v w = true) :
    w.isAtom = true := by
  cases w with
  | list | table | set | frozenset =>
      cases v with
      | list | table | set | frozenset => cases hv
      | _ => simp [sameAtom, asInt?] at h
  | _ => rfl

theorem same_eq_sameAtom (hv : v.isAtom = true) : v.same w = sameAtom v w := by
  cases v with
  | list | table | set | frozenset => cases hv
  | _ => rw [same] <;> nofun

end atoms

/-! ### Frozen sets -/

mutual

/-- Whether every frozen set in the value has keys for members, and each of them once. -/
def isProper : Value → Bool
  | .frozenset items => areProper items
  | _ => true

def areProper : List Value → Bool
  | [] => true
  | v :: rest => v.isKey && v.isProper && rest.all (fun w => !v.same w) && areProper rest

end

/-- A value that is a key, with every member of a frozen set in it once. -/
structure ProperKey (v : Value) : Prop where
  isKey : v.isKey = true
  isProper : v.isProper = true

theorem areProper_iff {items : List Value} : areProper items = true ↔
    (∀ v ∈ items, v.ProperKey) ∧ items.Pairwise fun v w => v.same w = false := by
  induction items with
  | nil => simp [areProper]
  | cons v rest ih =>
      rw [areProper, Bool.and_eq_true, ih, List.forall_mem_cons, List.pairwise_cons]
      have keys : v.ProperKey ↔ (v.isKey && v.isProper) = true := by
        rw [Bool.and_eq_true]
        exact ⟨fun h => ⟨h.isKey, h.isProper⟩, fun h => ⟨h.1, h.2⟩⟩
      rw [keys, Bool.and_eq_true, List.all_eq_true]
      simp only [Bool.not_eq_true']
      tauto

theorem ProperKey.isAtom_or_frozenset {v : Value} (h : v.ProperKey) :
    v.isAtom = true ∨ ∃ items, v = frozenset items := by
  cases v with
  | list | table | set => cases h.isKey
  | frozenset items => exact Or.inr ⟨items, rfl⟩
  | _ => exact Or.inl rfl

theorem itemsWithin_iff {items others : List Value} :
    itemsWithin items others = true ↔ ∀ v ∈ items, ∃ w ∈ others, v.same w = true := by
  induction items with
  | nil => simp [itemsWithin]
  | cons v rest ih => rw [itemsWithin, Bool.and_eq_true, ih, List.any_eq_true, List.forall_mem_cons]

theorem frozenset_same_iff {items others : List Value} :
    (frozenset items).same (frozenset others) = true ↔ items.length = others.length ∧
      ∀ v ∈ items, ∃ w ∈ others, v.same w = true := by
  rw [same, Bool.and_eq_true, beq_iff_eq, itemsWithin_iff]

/-- If every member of a list is related to one of a list that is no longer, and no two to the same
one, then every member of that list is related to. -/
theorem exists_related {α β : Type} {R : α → β → Prop} {items : List α} {others : List β}
    (apart : items.Pairwise fun a a' => ∀ b ∈ others, R a b → ¬ R a' b)
    (related : ∀ a ∈ items, ∃ b ∈ others, R a b) (short : others.length ≤ items.length) :
    ∀ b ∈ others, ∃ a ∈ items, R a b := by
  induction items generalizing others with
  | nil =>
      rw [List.eq_nil_of_length_eq_zero (Nat.le_zero.mp short)]
      nofun
  | cons a rest ih =>
      obtain ⟨apart_a, apart⟩ := List.pairwise_cons.mp apart
      obtain ⟨first, related⟩ := List.forall_mem_cons.mp related
      obtain ⟨b, hb, of_a⟩ := first
      obtain ⟨before, after, rfl⟩ := List.append_of_mem hb
      -- The others find their partners beside the one of the first.
      have beside : ∀ c ∈ rest, ∃ d ∈ before ++ after, R c d := by
        intro c hc
        obtain ⟨d, hd, of_c⟩ := related c hc
        refine ⟨d, ?_, of_c⟩
        have ne : d ≠ b := by
          rintro rfl
          exact apart_a c hc d hb of_a of_c
        simpa [ne] using hd
      have fewer : (before ++ after).length ≤ rest.length := by
        simp only [List.length_append, List.length_cons] at short ⊢
        omega
      have apart' : rest.Pairwise fun c c' => ∀ d ∈ before ++ after, R c d → ¬ R c' d :=
        apart.imp fun h d hd => h d (by simp only [List.mem_append, List.mem_cons] at hd ⊢; tauto)
      intro d hd
      by_cases same : d = b
      · exact ⟨a, List.mem_cons_self, same ▸ of_a⟩
      · obtain ⟨c, hc, of_c⟩ := ih apart' beside fewer d (by simpa [same] using hd)
        exact ⟨c, List.mem_cons_of_mem _ hc, of_c⟩

/-! ### The equivalence -/

/-- The value passes on what is the same as it, in both directions. -/
def Faithful (v : Value) : Prop :=
  ∀ w : Value, w.ProperKey → v.same w = true →
    w.same v = true ∧ ∀ u : Value, u.ProperKey → w.same u = true → v.same u = true

theorem faithful_of_isAtom {v : Value} (hv : v.isAtom = true) : v.Faithful := by
  intro w _ same
  rw [same_eq_sameAtom hv] at same
  have hw := isAtom_of_sameAtom hv same
  rw [sameAtom_iff hv hw] at same
  refine ⟨?_, fun u _ same' => ?_⟩
  · rw [same_eq_sameAtom hw, sameAtom_iff hw hv, same]
  · rw [same_eq_sameAtom hw] at same'
    have hu := isAtom_of_sameAtom hw same'
    rw [sameAtom_iff hw hu] at same'
    rw [same_eq_sameAtom hv, sameAtom_iff hv hu, same, same']

/-- What is the same as a frozen set is one, as far as it is a key. -/
theorem exists_of_frozenset_same {items : List Value} {w : Value} (hw : w.ProperKey)
    (h : (frozenset items).same w = true) : ∃ others, w = frozenset others := by
  rcases hw.isAtom_or_frozenset with atom | found
  · cases w with
    | list | table | set | frozenset => cases atom
    | _ => simp [same] at h
  · exact found

theorem faithful_frozenset {items : List Value} (hv : (frozenset items).ProperKey)
    (members : ∀ v ∈ items, v.Faithful) : (frozenset items).Faithful := by
  intro w hw same
  obtain ⟨others, rfl⟩ := exists_of_frozenset_same hw same
  obtain ⟨size, within⟩ := frozenset_same_iff.mp same
  obtain ⟨keys, differ⟩ := areProper_iff.mp hv.isProper
  obtain ⟨keys', -⟩ := areProper_iff.mp hw.isProper
  refine ⟨?_, fun u hu same' => ?_⟩
  · -- Two members that are the same as one of the other set would be the same as each other.
    have apart : items.Pairwise fun v v' =>
        ∀ w ∈ others, v.same w = true → ¬ v'.same w = true := by
      refine differ.imp_of_mem fun {v v'} hv hv' different w hw same same' => ?_
      have back := (members v' hv' w (keys' w hw) same').1
      have both := (members v hv w (keys' w hw) same).2 v' (keys v' hv') back
      rw [different] at both
      cases both
    rw [frozenset_same_iff]
    refine ⟨size.symm, fun w hw => ?_⟩
    obtain ⟨v, hv, same⟩ := exists_related apart within (Nat.le_of_eq size.symm) w hw
    exact ⟨v, hv, (members v hv w (keys' w hw) same).1⟩
  · obtain ⟨last, rfl⟩ := exists_of_frozenset_same hu same'
    obtain ⟨size', within'⟩ := frozenset_same_iff.mp same'
    obtain ⟨keys'', -⟩ := areProper_iff.mp hu.isProper
    rw [frozenset_same_iff]
    refine ⟨size.trans size', fun v hv => ?_⟩
    obtain ⟨w, hw, same⟩ := within v hv
    obtain ⟨u, hu, same'⟩ := within' w hw
    exact ⟨u, hu, (members v hv w (keys' w hw) same).2 u (keys'' u hu) same'⟩

mutual

theorem faithful : ∀ v : Value, v.ProperKey → v.Faithful
  | .frozenset items, h =>
      faithful_frozenset h (faithful_items items (areProper_iff.mp h.isProper).1)
  | .list _, h | .table _, h | .set _, h => nomatch h.isKey
  | .null, _ | .bool _, _ | .int _, _ | .float _, _ | .text _, _ | .date _, _ | .time _, _
  | .datetime _, _ => faithful_of_isAtom rfl

theorem faithful_items : ∀ items : List Value, (∀ v ∈ items, v.ProperKey) →
    ∀ v ∈ items, v.Faithful
  | [], _ => nofun
  | v :: rest, h => by
      obtain ⟨first, later⟩ := List.forall_mem_cons.mp h
      exact List.forall_mem_cons.mpr ⟨faithful v first, faithful_items rest later⟩

end

section equivalence
variable {v w u : Value}

theorem same_symm (hv : v.ProperKey) (hw : w.ProperKey) (h : v.same w = true) :
    w.same v = true :=
  (faithful v hv w hw h).1

theorem same_trans (hv : v.ProperKey) (hw : w.ProperKey) (hu : u.ProperKey)
    (h : v.same w = true) (h' : w.same u = true) : v.same u = true :=
  (faithful v hv w hw h).2 u hu h'

theorem same_comm (hv : v.ProperKey) (hw : w.ProperKey) : v.same w = w.same v :=
  Bool.eq_iff_iff.mpr ⟨same_symm hv hw, same_symm hw hv⟩

theorem same_congr_left (hv : v.ProperKey) (hw : w.ProperKey) (hu : u.ProperKey)
    (h : v.same w = true) : v.same u = w.same u :=
  Bool.eq_iff_iff.mpr ⟨same_trans hw hv hu (same_symm hv hw h), same_trans hv hw hu h⟩

theorem same_congr_right (hv : v.ProperKey) (hw : w.ProperKey) (hu : u.ProperKey)
    (h : w.same u = true) : v.same w = v.same u := by
  rw [same_comm hv hw, same_comm hv hu, same_congr_left hw hu hv h]

end equivalence

end Preferences.Value

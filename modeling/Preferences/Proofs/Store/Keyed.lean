import Preferences.Proofs.Store.TextKeyed
import Preferences.Proofs.Value.SameKeys

/-! # Tables with any keys

A table whose keys are proper and no two of them the same holds what a dictionary holds
(`Table.Keyed`).  What is found after a value is written, or a key removed, is told by whether the
keys count as the same (`Keyed.get?_put`, `Keyed.get?_remove`), and the table remains as it has to
be (`Keyed.put`, `Keyed.remove`). -/

namespace Preferences

theorem Value.properKey_of_isText {v : Value} (h : v.isText = true) : v.ProperKey := by
  cases v with
  | text => exact ⟨rfl, rfl⟩
  | _ => cases h

namespace Table

/-- Every key is a proper one, and no two of them are the same. -/
structure Keyed (t : Table) : Prop where
  proper : ∀ key ∈ t.keys, key.ProperKey
  different : t.keys.Pairwise fun key other => key.same other = false

theorem keyed_nil : Keyed [] := ⟨by simp [keys], by simp [keys]⟩

theorem keyed_cons_iff {entry : Value × Value} {t : Table} : Keyed (entry :: t) ↔
    entry.1.ProperKey ∧ (∀ key ∈ t.keys, entry.1.same key = false) ∧ t.Keyed := by
  constructor
  · rintro ⟨proper, different⟩
    rw [keys_cons] at proper different
    obtain ⟨apart, different⟩ := List.pairwise_cons.mp different
    obtain ⟨own, proper⟩ := List.forall_mem_cons.mp proper
    exact ⟨own, apart, proper, different⟩
  · rintro ⟨own, apart, proper, different⟩
    refine ⟨?_, ?_⟩
    · rw [keys_cons]
      exact List.forall_mem_cons.mpr ⟨own, proper⟩
    · rw [keys_cons]
      exact List.pairwise_cons.mpr ⟨apart, different⟩

theorem TextKeyed.keyed {t : Table} (h : t.TextKeyed) : t.Keyed := by
  refine ⟨fun key hk => Value.properKey_of_isText (h.texts key hk), ?_⟩
  refine h.nodup.imp_of_mem fun {key other} hk ho ne => ?_
  rw [Value.same_eq_decide (h.texts other ho)]
  exact decide_eq_false ne

theorem get?_eq_none_iff_forall {t : Table} {key : Value} :
    t.get? key = none ↔ ∀ other ∈ t.keys, other.same key = false := by
  simp [get?, keys]

theorem mem_put {t : Table} {key value : Value} :
    ∀ entry ∈ put key value t, entry.2 = value ∨ ∃ old ∈ t, old.2 = entry.2 := by
  induction t with
  | nil => simp [put]
  | cons first rest ih =>
      unfold put
      intro entry h
      split at h
      · rcases List.mem_cons.mp h with rfl | h
        · exact Or.inl rfl
        · exact Or.inr ⟨entry, List.mem_cons_of_mem _ h, rfl⟩
      · rcases List.mem_cons.mp h with rfl | h
        · exact Or.inr ⟨_, List.mem_cons_self, rfl⟩
        · rcases ih entry h with new | ⟨old, ho, same⟩
          · exact Or.inl new
          · exact Or.inr ⟨old, List.mem_cons_of_mem _ ho, same⟩

section keyed
variable {t : Table} {key other : Value} (value : Value)

/-- Under the keys that are the same as the written one stands the value; all else stays. -/
theorem Keyed.get?_put (keyed : t.Keyed) (hk : key.ProperKey) (ho : other.ProperKey) :
    (t.put key value).get? other = if key.same other then some value else t.get? other := by
  induction t with
  | nil => rw [Table.put, get?_cons]
  | cons entry rest ih =>
      obtain ⟨own, -, keyed⟩ := keyed_cons_iff.mp keyed
      unfold Table.put
      by_cases here : entry.1.same key = true
      · rw [if_pos here, get?_cons, get?_cons, Value.same_congr_left own hk ho here]
        by_cases same : key.same other = true <;> simp [same]
      · rw [if_neg here, get?_cons, get?_cons, ih keyed]
        by_cases same : key.same other = true
        · simp [same, ← Value.same_congr_right own hk ho same, here]
        · simp [same]

theorem Keyed.get?_remove (keyed : t.Keyed) (hk : key.ProperKey) (ho : other.ProperKey) :
    (t.remove key).get? other = if key.same other then none else t.get? other := by
  induction t with
  | nil => simp [Table.remove, get?]
  | cons entry rest ih =>
      obtain ⟨own, apart, keyed⟩ := keyed_cons_iff.mp keyed
      rw [remove_cons]
      by_cases here : entry.1.same key = true
      · rw [if_pos here, get?_cons, Value.same_congr_left own hk ho here]
        by_cases same : key.same other = true
        · -- No other key of the table is the same, so nothing is left of it.
          rw [if_pos same]
          refine get?_eq_none_iff_forall.mpr fun next hn => ?_
          have proper := keyed.proper next hn
          rw [← Value.same_congr_right proper hk ho same, Value.same_comm proper hk,
            ← Value.same_congr_left own hk proper here]
          exact apart next hn
        · simp [same]
      · rw [if_neg here, get?_cons, get?_cons, ih keyed]
        by_cases same : key.same other = true
        · simp [same, ← Value.same_congr_right own hk ho same, here]
        · simp [same]

theorem Keyed.put (keyed : t.Keyed) (hk : key.ProperKey) : (t.put key value).Keyed := by
  cases there : t.holds key with
  | true =>
      have same := keys_put_of_holds key value t there
      exact ⟨same ▸ keyed.proper, same ▸ keyed.different⟩
  | false =>
      have new : (Table.put key value t).keys = t.keys ++ [key] := by
        rw [put_of_not_holds key value t there]
        simp [keys]
      have absent : ∀ other ∈ t.keys, other.same key = false := by
        rw [holds_eq_isSome_get?, Option.isSome_eq_false_iff, Option.isNone_iff_eq_none] at there
        exact get?_eq_none_iff_forall.mp there
      refine ⟨?_, ?_⟩
      · rw [new, List.forall_mem_append, List.forall_mem_singleton]
        exact ⟨keyed.proper, hk⟩
      · rw [new, List.pairwise_append]
        refine ⟨keyed.different, List.pairwise_singleton _ _, fun other h => ?_⟩
        rw [List.forall_mem_singleton]
        exact absent other h

theorem Keyed.remove (keyed : t.Keyed) (key : Value) : (t.remove key).Keyed := by
  have part : (t.remove key).keys.Sublist t.keys := (List.eraseP_sublist).map _
  exact ⟨fun other h => keyed.proper other (part.subset h), keyed.different.sublist part⟩

end keyed

end Table

end Preferences

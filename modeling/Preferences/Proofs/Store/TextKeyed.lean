import Mathlib.Data.List.Nodup
import Preferences.Value.Table

/-! # Tables with texts as keys

A table that has texts as keys, each of them once, holds what a dictionary with text keys holds
(`Table.TextKeyed`).  Texts count as the same only if they are equal (`Value.same_eq_decide`), so on
such a table writing and removing say plainly what is found afterwards (`get?_put`, `get?_remove`)
and which keys stand where (`keys_put`, `keys_remove`), and both keep the table as it has to be
(`TextKeyed.put`, `TextKeyed.remove`). -/

namespace Preferences

namespace Value

def isText : Value → Bool
  | text _ => true
  | _ => false

theorem isKey_of_isText {v : Value} (h : v.isText = true) : v.isKey = true := by
  cases v <;> simp_all [isText, isKey]

theorem same_eq_decide {v w : Value} (hw : w.isText = true) : v.same w = decide (v = w) := by
  cases w with
  | text t =>
      cases v with
      | text s => by_cases h : s = t <;> simp [same, sameAtom, h]
      | _ => simp [same, sameAtom, asInt?]
  | _ => simp [isText] at hw

theorem same_eq_decide_left {v w : Value} (hv : v.isText = true) :
    v.same w = decide (v = w) := by
  cases v with
  | text s =>
      cases w with
      | text t => by_cases h : s = t <;> simp [same, sameAtom, h]
      | _ => simp [same, sameAtom, asInt?]
  | _ => simp [isText] at hv

end Value

namespace Table

/-- Every key is a text, and none stands there twice. -/
structure TextKeyed (t : Table) : Prop where
  texts : ∀ key ∈ t.keys, key.isText = true
  nodup : t.keys.Nodup

theorem keys_cons (entry : Value × Value) (t : Table) :
    keys (entry :: t) = entry.1 :: t.keys := rfl

theorem get?_cons (entry : Value × Value) (t : Table) (key : Value) :
    get? (entry :: t) key = if entry.1.same key then some entry.2 else t.get? key := by
  by_cases same : entry.1.same key <;> simp [get?, same]

theorem remove_cons (entry : Value × Value) (t : Table) (key : Value) :
    remove (entry :: t) key = if entry.1.same key then t else entry :: t.remove key := by
  by_cases same : entry.1.same key <;> simp [remove, same]

theorem textKeyed_nil : TextKeyed [] := ⟨by simp [keys], by simp [keys]⟩

theorem textKeyed_cons_iff {entry : Value × Value} {t : Table} :
    TextKeyed (entry :: t) ↔ entry.1.isText = true ∧ entry.1 ∉ t.keys ∧ t.TextKeyed := by
  constructor
  · rintro ⟨texts, nodup⟩
    rw [keys_cons] at texts nodup
    obtain ⟨fresh, nodup⟩ := List.nodup_cons.mp nodup
    exact ⟨texts _ List.mem_cons_self, fresh, fun key h => texts key (List.mem_cons_of_mem _ h),
      nodup⟩
  · rintro ⟨text, fresh, texts, nodup⟩
    refine ⟨?_, List.nodup_cons.mpr ⟨fresh, nodup⟩⟩
    intro key h
    rcases List.mem_cons.mp h with rfl | h
    · exact text
    · exact texts key h

section texts
variable {t : Table} {key other : Value} (value : Value)

theorem get?_eq_none_iff (keyed : t.TextKeyed) (hk : key.isText = true) :
    t.get? key = none ↔ key ∉ t.keys := by
  induction t with
  | nil => simp [get?, keys]
  | cons entry rest ih =>
      obtain ⟨text, -, keyed⟩ := textKeyed_cons_iff.mp keyed
      rw [get?_cons, keys_cons, Value.same_eq_decide hk, List.mem_cons]
      by_cases h : entry.1 = key
      · simp [h]
      · simp [h, Ne.symm h, ih keyed]

theorem get?_put (keyed : t.TextKeyed) (hk : key.isText = true) (ho : other.isText = true) :
    (t.put key value).get? other = if other = key then some value else t.get? other := by
  induction t with
  | nil =>
      unfold put
      rw [get?_cons, Value.same_eq_decide ho]
      simp [eq_comm]
  | cons entry rest ih =>
      obtain ⟨text, -, keyed⟩ := textKeyed_cons_iff.mp keyed
      have ih := ih keyed
      unfold put
      rw [Value.same_eq_decide hk]
      by_cases h : entry.1 = key
      · subst h
        by_cases e : other = entry.1
        · simp [e, get?_cons, Value.same_eq_decide text]
        · simp [e, get?_cons, Value.same_eq_decide ho, Ne.symm e]
      · simp only [h, decide_false, Bool.false_eq_true, if_false]
        rw [get?_cons, get?_cons, ih, Value.same_eq_decide ho]
        by_cases e : entry.1 = other
        · simp [← e, h]
        · simp [e]

theorem keys_put (keyed : t.TextKeyed) (hk : key.isText = true) :
    (t.put key value).keys = if key ∈ t.keys then t.keys else t.keys ++ [key] := by
  have absent : t.holds key = false ↔ key ∉ t.keys := by
    rw [holds_eq_isSome_get?, Option.isSome_eq_false_iff, Option.isNone_iff_eq_none,
      get?_eq_none_iff keyed hk]
  by_cases h : key ∈ t.keys
  · have present : t.holds key = true := by
      rw [← Bool.not_eq_false]
      exact fun e => absent.mp e h
    rw [if_pos h, keys_put_of_holds key value t present]
  · rw [if_neg h, put_of_not_holds key value t (absent.mpr h)]
    simp [keys]

theorem keys_remove (keyed : t.TextKeyed) (hk : key.isText = true) :
    (t.remove key).keys = t.keys.erase key := by
  induction t with
  | nil => simp [remove, keys]
  | cons entry rest ih =>
      obtain ⟨text, -, keyed⟩ := textKeyed_cons_iff.mp keyed
      rw [remove_cons, Value.same_eq_decide hk, keys_cons]
      by_cases h : entry.1 = key
      · simp [h]
      · simp [h, keys_cons, ih keyed, List.erase_cons_tail]

theorem get?_remove (keyed : t.TextKeyed) (hk : key.isText = true) (ho : other.isText = true) :
    (t.remove key).get? other = if other = key then none else t.get? other := by
  induction t with
  | nil => simp [remove, get?]
  | cons entry rest ih =>
      obtain ⟨text, fresh, keyed⟩ := textKeyed_cons_iff.mp keyed
      have ih := ih keyed
      rw [remove_cons, Value.same_eq_decide hk]
      by_cases h : entry.1 = key
      · subst h
        by_cases e : other = entry.1
        · -- The key stood here only, so nothing is left of it.
          have gone := (get?_eq_none_iff keyed text).mpr fresh
          simp [e, gone]
        · simp [e, get?_cons, Value.same_eq_decide ho, Ne.symm e]
      · simp only [h, decide_false, Bool.false_eq_true, if_false]
        rw [get?_cons, get?_cons, ih, Value.same_eq_decide ho]
        by_cases e : entry.1 = other
        · simp [← e, h]
        · simp [e]

theorem TextKeyed.put (keyed : t.TextKeyed) (hk : key.isText = true) :
    (t.put key value).TextKeyed := by
  have e := keys_put value keyed hk
  by_cases h : key ∈ t.keys
  · rw [if_pos h] at e
    exact ⟨by rw [e]; exact keyed.texts, by rw [e]; exact keyed.nodup⟩
  · rw [if_neg h] at e
    refine ⟨?_, ?_⟩
    · rw [e]
      intro other ho
      rcases List.mem_append.mp ho with ho | ho
      · exact keyed.texts other ho
      · rw [List.mem_singleton.mp ho]
        exact hk
    · rw [e]
      exact List.nodup_append.mpr ⟨keyed.nodup, List.nodup_singleton key,
        fun a ha b hb e => h (List.mem_singleton.mp hb ▸ e ▸ ha)⟩

theorem TextKeyed.remove (keyed : t.TextKeyed) (hk : key.isText = true) :
    (t.remove key).TextKeyed := by
  have e := keys_remove keyed hk
  refine ⟨?_, ?_⟩
  · rw [e]
    exact fun other ho => keyed.texts other (List.mem_of_mem_erase ho)
  · rw [e]
    exact keyed.nodup.erase key

end texts

theorem TextKeyed.ext {t u : Table} (ht : t.TextKeyed) (hu : u.TextKeyed) (keys : t.keys = u.keys)
    (values : ∀ key, key.isText = true → t.get? key = u.get? key) : t = u := by
  induction t generalizing u with
  | nil =>
      cases u with
      | nil => rfl
      | cons entry rest => cases keys
  | cons entry rest ih =>
      cases u with
      | nil => cases keys
      | cons entry' rest' =>
          obtain ⟨text, fresh, ht⟩ := textKeyed_cons_iff.mp ht
          obtain ⟨text', fresh', hu⟩ := textKeyed_cons_iff.mp hu
          obtain ⟨same_key, same_keys⟩ := List.cons.inj keys
          have same_value := values entry.1 text
          rw [get?_cons, get?_cons, ← same_key, Value.same_eq_decide text] at same_value
          have same_value : entry.2 = entry'.2 := by simpa using same_value
          have tail : rest = rest' := by
            refine ih ht hu same_keys fun key hk => ?_
            by_cases h : entry.1 = key
            · rw [← h, (get?_eq_none_iff ht text).mpr fresh, same_key,
                (get?_eq_none_iff hu text').mpr fresh']
            · have same := values key hk
              rw [get?_cons, get?_cons, ← same_key, Value.same_eq_decide hk] at same
              simpa [h] using same
          rw [Prod.ext same_key same_value, tail]

end Table

end Preferences

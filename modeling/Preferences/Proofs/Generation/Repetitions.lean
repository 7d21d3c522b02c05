import Mathlib.Data.List.Induction
import Preferences.Proofs.Generation.Assembly

/-! # Names that are repeated

Generation goes through the names of the methods of a class and keeps the ones it has seen.  It
comes to the end exactly if all names can be told apart (`Distinct`), and it stops at a name exactly
if that is the first one to repeat a name before it (`RepeatsFirst`). -/

namespace Preferences.Generator

/-- The names can be keys, and no two of them count as the same. -/
structure Distinct (names : List Value) : Prop where
  keys : ∀ name ∈ names, name.isKey = true
  differ : names.Pairwise fun name other => name.same other = false

/-- The name is the first in the list that counts as the same as one before it. -/
def RepeatsFirst (names : List Value) (name : Value) : Prop :=
  ∃ before after, names = before ++ name :: after ∧ Distinct before ∧
    ∃ other ∈ before, other.same name = true

section distinct
variable {names more : List Value} {name : Value}

theorem distinct_nil : Distinct [] := ⟨by simp, List.Pairwise.nil⟩

theorem Distinct.left (h : Distinct (names ++ more)) : Distinct names :=
  ⟨fun name hn => h.keys name (List.mem_append_left _ hn), (List.pairwise_append.mp h.differ).1⟩

theorem distinct_concat_iff : Distinct (names ++ [name]) ↔
    Distinct names ∧ name.isKey = true ∧ ∀ other ∈ names, other.same name = false := by
  constructor
  · intro h
    refine ⟨h.left, h.keys name (by simp), fun other ho => ?_⟩
    exact (List.pairwise_append.mp h.differ).2.2 other ho name (List.mem_singleton_self name)
  · rintro ⟨h, key, fresh⟩
    refine ⟨?_, List.pairwise_append.mpr ⟨h.differ, List.pairwise_singleton _ _, ?_⟩⟩
    · rw [List.forall_mem_append]
      exact ⟨h.keys, by simpa using key⟩
    · intro other ho last hl
      obtain rfl := List.mem_singleton.mp hl
      exact fresh other ho

/-- A name in front of others stands apart from the ones before it. -/
theorem Distinct.fresh (h : Distinct (names ++ name :: more)) :
    name.isKey = true ∧ ∀ other ∈ names, other.same name = false := by
  rw [← List.singleton_append, ← List.append_assoc] at h
  exact (distinct_concat_iff.mp h.left).2

end distinct

section scan
variable {seen names : List Value} {name : Value}

theorem firstRepeated_of_seen {rest : List Value} (h : ∃ other ∈ seen, other.same name = true) :
    firstRepeated seen (name :: rest) = .ok (some name) := by
  rw [firstRepeated, if_pos (List.any_eq_true.mpr h)]

theorem firstRepeated_of_fresh {rest : List Value} (key : name.isKey = true)
    (fresh : ∀ other ∈ seen, other.same name = false) :
    firstRepeated seen (name :: rest) = firstRepeated (seen ++ [name]) rest := by
  have new : ¬seen.any (·.same name) = true := by
    simpa [List.any_eq_true] using fresh
  rw [firstRepeated, if_neg new, if_neg (by simp [key])]

theorem firstRepeated_eq_none_iff (h : Distinct seen) :
    firstRepeated seen names = .ok none ↔ Distinct (seen ++ names) := by
  induction names generalizing seen with
  | nil => simpa [firstRepeated] using h
  | cons name rest ih =>
      constructor
      · intro unrepeated
        unfold firstRepeated at unrepeated
        split_ifs at unrepeated with repeated unusable
        · cases unrepeated
        · have grown : Distinct (seen ++ [name]) :=
            distinct_concat_iff.mpr ⟨h, by simpa using unusable, by simpa using repeated⟩
          simpa using (ih grown).mp unrepeated
      · intro distinct
        obtain ⟨key, fresh⟩ := distinct.fresh
        rw [firstRepeated_of_fresh key fresh, ih (distinct_concat_iff.mpr ⟨h, key, fresh⟩),
          List.append_assoc, List.singleton_append]
        exact distinct

/-- The scan stops at a name exactly if that is the first to repeat one that was seen. -/
theorem firstRepeated_eq_some_iff (h : Distinct seen) :
    firstRepeated seen names = .ok (some name) ↔
      ∃ before after, names = before ++ name :: after ∧ Distinct (seen ++ before) ∧
        ∃ other ∈ seen ++ before, other.same name = true := by
  induction names generalizing seen with
  | nil => simp [firstRepeated]
  | cons first rest ih =>
      constructor
      · intro found
        unfold firstRepeated at found
        split_ifs at found with repeated unusable
        · obtain rfl := Option.some.inj (Except.ok.inj found)
          exact ⟨[], rest, rfl, by simpa using h, by simpa using repeated⟩
        · have grown : Distinct (seen ++ [first]) :=
            distinct_concat_iff.mpr ⟨h, by simpa using unusable, by simpa using repeated⟩
          obtain ⟨before, after, rfl, distinct, other⟩ := (ih grown).mp found
          exact ⟨first :: before, after, rfl, by simpa using distinct, by simpa using other⟩
      · rintro ⟨before, after, split, distinct, repeated⟩
        rcases List.cons_eq_append_iff.mp split with ⟨rfl, same⟩ | ⟨before, rfl, rfl⟩
        · obtain ⟨rfl, rfl⟩ := List.cons.inj same
          exact firstRepeated_of_seen (by simpa using repeated)
        · obtain ⟨key, fresh⟩ := distinct.fresh
          rw [firstRepeated_of_fresh key fresh, ih (distinct_concat_iff.mpr ⟨h, key, fresh⟩)]
          exact ⟨before, after, rfl, by simpa using distinct, by simpa using repeated⟩

theorem firstRepeated_nil_eq_none_iff : firstRepeated [] names = .ok none ↔ Distinct names :=
  firstRepeated_eq_none_iff distinct_nil

theorem firstRepeated_nil_eq_some_iff :
    firstRepeated [] names = .ok (some name) ↔ RepeatsFirst names name :=
  firstRepeated_eq_some_iff distinct_nil

theorem distinct_or_repeatsFirst (keys : ∀ name ∈ names, name.isKey = true) :
    Distinct names ∨ ∃ name, RepeatsFirst names name := by
  induction names using List.reverseRecOn with
  | nil => exact Or.inl distinct_nil
  | append_singleton before name ih =>
      rcases ih fun other ho => keys other (List.mem_append_left _ ho) with
        distinct | ⟨other, earlier, later, rfl, distinct, repeated⟩
      · by_cases fresh : ∀ other ∈ before, other.same name = false
        · exact Or.inl (distinct_concat_iff.mpr ⟨distinct, keys name (by simp), fresh⟩)
        · exact Or.inr ⟨name, before, [], rfl, distinct, by simpa using fresh⟩
      · exact Or.inr ⟨other, earlier, later ++ [name], by simp, distinct, repeated⟩

end scan

end Preferences.Generator

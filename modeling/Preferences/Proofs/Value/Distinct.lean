import Mathlib.Data.List.Induction
import Mathlib.Tactic.SplitIfs
import Preferences.Proofs.Value.SameSelf

/-! # Each value once

`Value.distinct` keeps the values of a list apart: the kept ones stand in their order, no two of
them are the same, and every value is the same as one of them. -/

namespace Preferences.Value

variable {values : List Value} {v : Value}

theorem distinct_concat (values : List Value) (v : Value) :
    distinct (values ++ [v]) =
      if (distinct values).any (·.same v) then distinct values else distinct values ++ [v] := by
  unfold distinct
  rw [List.foldl_append]
  rfl

theorem distinct_sublist (values : List Value) : (distinct values).Sublist values := by
  induction values using List.reverseRecOn with
  | nil => exact List.Sublist.refl []
  | append_singleton values v ih =>
      rw [distinct_concat]
      split_ifs
      · exact ih.trans (List.sublist_append_left _ _)
      · exact ih.append (List.Sublist.refl _)

theorem pairwise_distinct (values : List Value) :
    (distinct values).Pairwise fun v w => v.same w = false := by
  induction values using List.reverseRecOn with
  | nil => exact List.Pairwise.nil
  | append_singleton values v ih =>
      rw [distinct_concat]
      split_ifs with known
      · exact ih
      · rw [Bool.not_eq_true, List.any_eq_false] at known
        refine List.pairwise_append.mpr ⟨ih, List.pairwise_singleton _ _, fun w member u last => ?_⟩
        rw [List.mem_singleton.mp last]
        exact Bool.eq_false_iff.mpr (known w member)

theorem exists_same_of_mem (member : v ∈ values) :
    ∃ w ∈ distinct values, w.same v = true := by
  induction values using List.reverseRecOn with
  | nil => cases member
  | append_singleton values u ih =>
      have kept : ∀ w ∈ distinct values, w ∈ distinct (values ++ [u]) := by
        intro w there
        rw [distinct_concat]
        split_ifs
        · exact there
        · exact List.mem_append_left _ there
      rcases List.mem_append.mp member with old | new
      · obtain ⟨w, there, same⟩ := ih old
        exact ⟨w, kept w there, same⟩
      · obtain rfl := List.mem_singleton.mp new
        by_cases known : (distinct values).any (·.same v) = true
        · obtain ⟨w, there, same⟩ := List.any_eq_true.mp known
          exact ⟨w, kept w there, same⟩
        · refine ⟨v, ?_, v.same_self⟩
          rw [distinct_concat, if_neg known]
          exact List.mem_append_right _ (List.mem_singleton_self v)

end Preferences.Value

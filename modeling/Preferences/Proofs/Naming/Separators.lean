import Mathlib.Data.List.SplitBy
import Preferences.Naming.SnakeCase

/-! # Runs of separators

`joinSeparators` looks for runs of separators from left to right.  Here the runs are what the text
is cut into at every change between separators and other characters (`joinRuns`), and the two are
the same (`joinSeparators_eq`).  Facts about the joined text go by `separator_induction`, one
character or one run at a time: what is left of the text has no separator
(`not_isSeparator_of_mem_joinRuns`), and a text can be joined in two parts wherever the second
begins with no separator (`joinRuns_append`). -/

namespace Preferences.Naming

open Preferences.Text

/-- Both characters are separators, or neither is. -/
def areAlike (a b : Char) : Bool := isSeparator a == isSeparator b

/-- The text with one underscore in place of every longest run of separators. -/
def joinRuns (s : List Char) : List Char :=
  (s.splitBy areAlike).flatMap fun run => if run.all isSeparator then ['_'] else run

variable {c : Char} {s rest run tail : List Char}

theorem not_isBlank_of_not_isSeparator (h : isSeparator c = false) : isBlank c = false := by
  simp only [isSeparator, Bool.or_eq_false_iff] at h
  exact h.1.1

/-! ### Cutting into runs -/

/-- Characters that are alike stay together up to one that is not like them. -/
theorem splitBy_areAlike (separates : Bool) (ne : run ≠ [])
    (alike : ∀ a ∈ run, isSeparator a = separates)
    (changes : ∀ b ∈ tail.head?, isSeparator b = !separates) :
    (run ++ tail).splitBy areAlike = run :: tail.splitBy areAlike := by
  rw [List.splitBy_append, List.splitBy_of_isChain ne, List.singleton_append]
  · refine (List.Pairwise.isChain (List.pairwise_of_forall_mem_list fun a ha b hb => ?_))
    simp [areAlike, alike a ha, alike b hb]
  · intro a ha b hb
    simp [areAlike, alike a (List.mem_of_mem_getLast? ha), changes b hb]

/-- A text is empty, or begins with a character that is no separator, or with a longest run of
separators. -/
theorem separator_induction {motive : List Char → Prop} (nil : motive [])
    (other : ∀ c rest, isSeparator c = false → motive rest → motive (c :: rest))
    (run : ∀ run tail, run ≠ [] → (∀ a ∈ run, isSeparator a = true) →
      (∀ b ∈ tail.head?, isSeparator b = false) → motive tail → motive (run ++ tail))
    (s : List Char) : motive s := by
  induction size : s.length using Nat.strong_induction_on generalizing s with
  | h n ih =>
      cases s with
      | nil => exact nil
      | cons c rest =>
          by_cases h : isSeparator c = true
          · rw [← List.takeWhile_append_dropWhile (p := isSeparator) (l := c :: rest)]
            refine run _ _ (by simp [h]) (fun a ha => ?_)
              (fun b hb => eq_false_of_mem_head?_dropWhile hb) ?_
            · exact List.all_eq_true.mp List.all_takeWhile a ha
            · refine ih _ ?_ _ rfl
              rw [List.dropWhile_cons_of_pos h, ← size, List.length_cons]
              exact Nat.lt_succ_of_le (List.dropWhile_suffix isSeparator).length_le
          · refine other c rest (Bool.eq_false_iff.mpr h) (ih _ ?_ rest rfl)
            rw [← size, List.length_cons]
            exact Nat.lt_succ_self _

/-! ### The joined text -/

@[simp] theorem joinRuns_nil : joinRuns [] = [] := rfl

/-- A text without separators is a run of its own up to the next separator. -/
theorem joinRuns_append_of_changes (word : ∀ a ∈ s, isSeparator a = false)
    (changes : ∀ b ∈ tail.head?, isSeparator b = true) :
    joinRuns (s ++ tail) = s ++ joinRuns tail := by
  cases s with
  | nil => rfl
  | cons c rest =>
      rw [joinRuns, splitBy_areAlike false (List.cons_ne_nil _ _) word changes, List.flatMap_cons,
        if_neg, joinRuns]
      simp [word c List.mem_cons_self]

theorem joinRuns_other (h : isSeparator c = false) : joinRuns (c :: rest) = c :: joinRuns rest := by
  have word : ∀ a ∈ rest.takeWhile (!isSeparator ·), isSeparator a = false := fun a ha => by
    simpa using List.all_eq_true.mp List.all_takeWhile a ha
  have changes : ∀ b ∈ (rest.dropWhile (!isSeparator ·)).head?, isSeparator b = true :=
    fun b hb => by simpa using eq_false_of_mem_head?_dropWhile hb
  rw [← List.takeWhile_append_dropWhile (p := (!isSeparator ·)) (l := rest), ← List.cons_append,
    joinRuns_append_of_changes (List.forall_mem_cons.mpr ⟨h, word⟩) changes,
    joinRuns_append_of_changes word changes, List.cons_append]

theorem joinRuns_run (ne : run ≠ []) (all : ∀ a ∈ run, isSeparator a = true)
    (changes : ∀ b ∈ tail.head?, isSeparator b = false) :
    joinRuns (run ++ tail) = '_' :: joinRuns tail := by
  rw [joinRuns, splitBy_areAlike true ne all changes, List.flatMap_cons,
    if_pos (List.all_eq_true.mpr all), joinRuns, List.singleton_append]

/-- Characters that do not separate stay in front of what follows. -/
theorem joinRuns_word (word : ∀ a ∈ s, isSeparator a = false) (tail : List Char) :
    joinRuns (s ++ tail) = s ++ joinRuns tail := by
  induction s with
  | nil => rfl
  | cons c rest ih =>
      obtain ⟨first, later⟩ := List.forall_mem_cons.mp word
      rw [List.cons_append, joinRuns_other first, ih later, List.cons_append]

/-- A text can be joined in two parts where the second begins with no separator. -/
theorem joinRuns_append (starts : ∀ b ∈ tail.head?, isSeparator b = false) :
    joinRuns (s ++ tail) = joinRuns s ++ joinRuns tail := by
  induction s using separator_induction with
  | nil => rfl
  | other c rest h ih =>
      rw [List.cons_append, joinRuns_other h, ih, joinRuns_other h, List.cons_append]
  | run run after ne all changes ih =>
      have changes' : ∀ b ∈ (after ++ tail).head?, isSeparator b = false := by
        cases after with
        | nil => exact starts
        | cons b others => exact changes
      rw [List.append_assoc, joinRuns_run ne all changes', ih, joinRuns_run ne all changes,
        List.cons_append]

/-! ### Replacing the runs from left to right -/

theorem separatorRun_run (ne : run ≠ []) (all : ∀ a ∈ run, isSeparator a = true)
    (changes : ∀ b ∈ tail.head?, isSeparator b = false) :
    separatorRun (run ++ tail) = some (['_'], run.length) := by
  have stops : tail.takeWhile isSeparator = [] := by
    cases tail with
    | nil => rfl
    | cons b rest => rw [List.takeWhile_cons_of_neg (by simp [changes b rfl])]
  have matched : (run ++ tail).takeWhile isSeparator = run := by
    rw [List.takeWhile_append_of_pos all, stops, List.append_nil]
  simp only [separatorRun, matched, List.isEmpty_iff, ne, if_false]

/-- Every longest run of separators is replaced. -/
theorem replaceAll_separatorRun (s : List Char) : replaceAll separatorRun s = joinRuns s := by
  induction s using separator_induction with
  | nil => rw [replaceAll_nil, joinRuns_nil]
  | other c rest h ih =>
      have none : separatorRun (c :: rest) = none := by
        simp [separatorRun, List.takeWhile_cons_of_neg, h]
      rw [replaceAll_of_none none, ih, joinRuns_other h]
  | run run tail ne all changes ih =>
      rw [replaceAll_append_of_some ne (separatorRun_run ne all changes), ih,
        joinRuns_run ne all changes, List.singleton_append]

theorem joinSeparators_eq (name : List Char) : joinSeparators name = joinRuns (trim name) :=
  replaceAll_separatorRun (trim name)

/-! ### What is left -/

theorem not_isSeparator_underscore : isSeparator '_' = false := by decide

theorem not_isSeparator_of_mem_joinRuns : ∀ a ∈ joinRuns s, isSeparator a = false := by
  induction s using separator_induction with
  | nil => nofun
  | other c rest h ih =>
      rw [joinRuns_other h]
      exact List.forall_mem_cons.mpr ⟨h, ih⟩
  | run run tail ne all changes ih =>
      rw [joinRuns_run ne all changes]
      exact List.forall_mem_cons.mpr ⟨not_isSeparator_underscore, ih⟩

theorem joinRuns_eq_self (h : ∀ a ∈ s, isSeparator a = false) : joinRuns s = s := by
  rw [← List.append_nil s, joinRuns_word h, joinRuns_nil]

/-- The joined text has the characters of the text, and underscores. -/
theorem mem_or_eq_of_mem_joinRuns (h : c ∈ joinRuns s) : c ∈ s ∨ c = '_' := by
  obtain ⟨run, member, h⟩ := List.mem_flatMap.mp h
  split_ifs at h
  · exact Or.inr (List.mem_singleton.mp h)
  · rw [← List.flatten_splitBy areAlike s]
    exact Or.inl (List.mem_flatten.mpr ⟨run, member, h⟩)

end Preferences.Naming

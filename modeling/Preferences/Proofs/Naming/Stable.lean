import Preferences.Proofs.Naming.Boundaries
import Preferences.Proofs.Naming.LowerCase

/-! # Snake case is stable

What snake case gives can be told by its characters and its ends (`IsSnake`): every character is
lowered, none separates words, and neither end is an underscore.  Each pass leaves such a name as it
is, so these are the names that snake case does not change (`snakeCase_eq_self_iff`), and a second
use changes nothing. -/

namespace Preferences.Naming

open Preferences.Text

/-- The form of a name in snake case. -/
structure IsSnake (s : List Char) : Prop where
  lowered : ∀ c ∈ s, IsLowered c
  together : ∀ c ∈ s, isSeparator c = false
  first : s.head? ≠ some '_'
  last : s.getLast? ≠ some '_'

variable {c : Char} {s : List Char}

theorem not_isSeparator_of_mem_snakeCase (h : c ∈ snakeCase s) : isSeparator c = false := by
  refine Bool.eq_false_iff.mpr fun separator => ?_
  rw [snakeCase, joinSeparators_eq, markBoundaries_eq] at h
  have marked := mem_of_mem_lower (mem_of_mem_trimBy h) separator
  rcases mem_or_eq_of_mem_markPositions marked with joined | rfl
  · exact Bool.false_ne_true ((not_isSeparator_of_mem_joinRuns c joined).symm.trans separator)
  · exact Bool.false_ne_true (not_isSeparator_underscore.symm.trans separator)

theorem isSnake_snakeCase (name : List Char) : IsSnake (snakeCase name) where
  lowered _ member := isLowered_of_mem_lower (mem_of_mem_trimBy member)
  together _ member := not_isSeparator_of_mem_snakeCase member
  first first := absurd (head?_trimBy first) (by decide)
  last last := absurd (getLast?_trimBy last) (by decide)

theorem snakeCase_eq_self (h : IsSnake s) : snakeCase s = s := by
  have filled (c : Char) (member : c ∈ s) : isBlank c = false :=
    not_isBlank_of_not_isSeparator (h.together c member)
  have trimmed : trim s = s :=
    trimBy_eq_self (fun c first => filled c (List.mem_of_mem_head? first))
      fun c last => filled c (List.mem_of_mem_getLast? last)
  have unmarked : markPositions s = s :=
    markPositions_eq_self fun c member => not_isCapital_of_isLowered (h.lowered c member)
  have stripped : trimBy (· == '_') s = s :=
    trimBy_eq_self (fun c first => beq_false_of_ne fun same => h.first (same ▸ first))
      fun c last => beq_false_of_ne fun same => h.last (same ▸ last)
  rw [snakeCase, joinSeparators_eq, markBoundaries_eq, trimmed, joinRuns_eq_self h.together,
    unmarked, lower_eq_self h.lowered, stripped]

/-- The names that snake case does not change are those of its own form. -/
theorem snakeCase_eq_self_iff : snakeCase s = s ↔ IsSnake s :=
  ⟨fun same => same ▸ isSnake_snakeCase s, snakeCase_eq_self⟩

/-- **Snake case is stable.**  A second use changes nothing; the result has no capital letter and
nothing that separates words, and no underscore at either end. -/
theorem snakeCase_stable (name : List Char) :
    snakeCase (snakeCase name) = snakeCase name ∧
      (∀ c ∈ snakeCase name, isCapital c = false ∧ isBlank c = false ∧ c ≠ '-' ∧ c ≠ '.') ∧
      (snakeCase name).head? ≠ some '_' ∧ (snakeCase name).getLast? ≠ some '_' := by
  have snake := isSnake_snakeCase name
  refine ⟨snakeCase_eq_self snake, fun c member => ?_, snake.first, snake.last⟩
  have together := snake.together c member
  simp only [isSeparator, Bool.or_eq_false_iff, beq_eq_false_iff_ne] at together
  have small := not_isCapital_of_isLowered (snake.lowered c member)
  exact ⟨small, together.1.1, together.1.2, together.2⟩

end Preferences.Naming

/-! # Replacing by a pattern

`replaceAll` replaces every match of a pattern, from left to right and without overlap: after a
match it goes on behind the characters that the match covers. -/

namespace Preferences.Text

/-- Looks for a match at the head of a text: its replacement, and how many characters it covers. -/
abbrev Pattern := List Char → Option (List Char × Nat)

/-- The text with every match of the pattern replaced. -/
def replaceAll (pattern : Pattern) : List Char → List Char
  | [] => []
  | c :: rest =>
    match pattern (c :: rest) with
    | none => c :: replaceAll pattern rest
    | some (replacement, covered) => replacement ++ replaceAll pattern (rest.drop (covered - 1))
termination_by s => s.length
decreasing_by
  · simp
  · simp only [List.length_drop, List.length_cons]; omega

theorem replaceAll_nil (pattern : Pattern) : replaceAll pattern [] = [] := by
  rw [replaceAll]

theorem replaceAll_of_none {pattern : Pattern} {c : Char} {rest : List Char}
    (h : pattern (c :: rest) = none) :
    replaceAll pattern (c :: rest) = c :: replaceAll pattern rest := by
  rw [replaceAll, h]

theorem replaceAll_of_some {pattern : Pattern} {c : Char} {rest replacement : List Char}
    {covered : Nat} (h : pattern (c :: rest) = some (replacement, covered)) :
    replaceAll pattern (c :: rest) =
      replacement ++ replaceAll pattern (rest.drop (covered - 1)) := by
  rw [replaceAll, h]

theorem replaceAll_append_of_some {pattern : Pattern} {found tail replacement : List Char}
    (ne : found ≠ []) (h : pattern (found ++ tail) = some (replacement, found.length)) :
    replaceAll pattern (found ++ tail) = replacement ++ replaceAll pattern tail := by
  cases found with
  | nil => exact absurd rfl ne
  | cons c rest =>
      rw [List.cons_append] at h ⊢
      rw [replaceAll_of_some h, List.length_cons, Nat.add_sub_cancel, List.drop_left]

/-- `replaceAll` is the only function that goes on behind every match and over everything else. -/
theorem replaceAll_eq {pattern : Pattern} {f : List Char → List Char} (nil : f [] = [])
    (none : ∀ c rest, pattern (c :: rest) = none → f (c :: rest) = c :: f rest)
    (some : ∀ c rest replacement covered, pattern (c :: rest) = some (replacement, covered) →
      f (c :: rest) = replacement ++ f (rest.drop (covered - 1))) (s : List Char) :
    replaceAll pattern s = f s := by
  fun_induction replaceAll pattern s with
  | case1 => exact nil.symm
  | case2 c rest h ih => rw [ih, none c rest h]
  | case3 c rest replacement covered h ih => rw [ih, some c rest replacement covered h]

end Preferences.Text

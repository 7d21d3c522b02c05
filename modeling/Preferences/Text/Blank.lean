import Preferences.Text.CodeRanges

/-! # Blank characters

The white space of Unicode, together with the four information separators.  `trim` takes blank
characters off both ends of a text and `removeBlanks` takes out all of them; `trimBy` is the same
trimming for any class of characters. -/

namespace Preferences.Text

/-- The code points of the blank characters. -/
def blanks : CodeRanges := [
  (0x9, 0xd), (0x1c, 0x20), (0x85, 0x85), (0xa0, 0xa0), (0x1680, 0x1680), (0x2000, 0x200a),
  (0x2028, 0x2029), (0x202f, 0x202f), (0x205f, 0x205f), (0x3000, 0x3000)]

def isBlank (c : Char) : Bool := blanks.has c

/-- The text without its leading and trailing characters of the class. -/
def trimBy (class? : Char → Bool) (s : List Char) : List Char :=
  ((s.dropWhile class?).reverse.dropWhile class?).reverse

/-- The text without leading and trailing blank characters. -/
def trim (s : List Char) : List Char := trimBy isBlank s

/-- The text without any blank character. -/
def removeBlanks (s : List Char) : List Char := s.filter (!isBlank ·)

theorem removeBlanks_removeBlanks (s : List Char) :
    removeBlanks (removeBlanks s) = removeBlanks s := by
  simp [removeBlanks]

/-! ### What trimming leaves -/

section trimBy
variable {class? : Char → Bool} {c : Char} {s front core back : List Char}

theorem eq_false_of_mem_head?_dropWhile (h : c ∈ (s.dropWhile class?).head?) :
    class? c = false := by
  have stops := List.head?_dropWhile_not class? s
  rw [h] at stops
  exact stops

theorem dropWhile_append_of_head? {tail : List Char} (h : ∀ c ∈ tail.head?, class? c = false) :
    (s ++ tail).dropWhile class? = s.dropWhile class? ++ tail := by
  have stays : tail.dropWhile class? = tail := by
    cases tail with
    | nil => rfl
    | cons c rest => exact List.dropWhile_cons_of_neg (by simp [h c rfl])
  rw [List.dropWhile_append, stays]
  split
  next empty => rw [List.isEmpty_iff.mp empty, List.nil_append]
  next => rfl

/-- Around a text that neither begins nor ends with a character of the class, both sides are trimmed
from the outside. -/
theorem trimBy_append (ne : core ≠ []) (first : ∀ c ∈ core.head?, class? c = false)
    (last : ∀ c ∈ core.getLast?, class? c = false) :
    trimBy class? (front ++ core ++ back) =
      front.dropWhile class? ++ core ++ (back.reverse.dropWhile class?).reverse := by
  have first' : ∀ c ∈ (core ++ back).head?, class? c = false := by
    cases core with
    | nil => exact absurd rfl ne
    | cons c rest => exact first
  have last' : ∀ c ∈ (core.reverse ++ (front.dropWhile class?).reverse).head?,
      class? c = false := by
    rw [← List.head?_reverse] at last
    cases turned : core.reverse with
    | nil => exact absurd (List.reverse_eq_nil_iff.mp turned) ne
    | cons c rest =>
        rw [turned] at last
        exact last
  rw [trimBy, List.append_assoc, dropWhile_append_of_head? first', ← List.append_assoc,
    List.reverse_append, List.reverse_append, dropWhile_append_of_head? last', List.reverse_append,
    List.reverse_append, List.reverse_reverse, List.reverse_reverse]

theorem trimBy_eq_self (first : ∀ c ∈ s.head?, class? c = false)
    (last : ∀ c ∈ s.getLast?, class? c = false) : trimBy class? s = s := by
  cases s with
  | nil => rfl
  | cons c rest =>
      have trimmed := @trimBy_append class? [] _ [] (List.cons_ne_nil c rest) first last
      simpa using trimmed

theorem getLast?_trimBy (h : c ∈ (trimBy class? s).getLast?) : class? c = false := by
  rw [trimBy, List.getLast?_reverse] at h
  exact eq_false_of_mem_head?_dropWhile h

theorem isPrefix_trimBy (class? : Char → Bool) (s : List Char) :
    trimBy class? s <+: s.dropWhile class? := by
  have suffix := List.dropWhile_suffix class? (l := (s.dropWhile class?).reverse)
  exact List.reverse_suffix.mp (by rwa [trimBy, List.reverse_reverse])

theorem head?_trimBy (h : c ∈ (trimBy class? s).head?) : class? c = false := by
  obtain ⟨back, split⟩ := isPrefix_trimBy class? s
  refine eq_false_of_mem_head?_dropWhile (s := s) ?_
  rw [← split, List.head?_append, h]
  rfl

theorem mem_of_mem_trimBy (h : c ∈ trimBy class? s) : c ∈ s :=
  (List.dropWhile_suffix class?).subset ((isPrefix_trimBy class? s).subset h)

end trimBy

end Preferences.Text

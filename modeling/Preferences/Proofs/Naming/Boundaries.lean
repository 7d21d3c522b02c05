import Preferences.Proofs.Naming.Separators

/-! # Boundaries between words, position by position

`markBoundaries` goes through a name twice, replacing what it finds from left to right.  Here a
boundary is told by the three characters from a position on (`isBoundary`), and all boundaries of
the name are marked at once (`markPositions`).  Both passes are marks of this kind
(`replaceAll_acronymEnd`, `replaceAll_wordEnd`), and the second does not see the marks of the first
(`markBy_markBy`), so the two ways agree (`markBoundaries_eq`). -/

namespace Preferences.Naming

open Preferences.Text

/-- Whether a word ends at the position: a small letter or a digit is followed by a capital, or a
capital by a capital and a small letter. -/
def isBoundary (s : List Char) (i : Nat) : Bool :=
  (s[i]?.any fun a => isSmall a || isDigit a) && s[i + 1]?.any isCapital ||
  s[i]?.any isCapital && s[i + 1]?.any isCapital && s[i + 2]?.any isSmall

/-- The text with an underscore behind every position where a word ends. -/
def markPositions (s : List Char) : List Char :=
  s.zipIdx.flatMap fun (c, i) => if isBoundary s i then [c, '_'] else [c]

/-- The text with an underscore behind every character that is marked together with what follows. -/
def markBy (marks : List Char → Bool) : List Char → List Char
  | [] => []
  | c :: rest => (if marks (c :: rest) then [c, '_'] else [c]) ++ markBy marks rest

/-- The text begins with the end of a word and a capital. -/
def beginsWordEnd (s : List Char) : Bool := s[0]?.any endsWord && s[1]?.any isCapital

/-- The text begins with two capitals and a small letter. -/
def beginsAcronymEnd (s : List Char) : Bool :=
  s[0]?.any isCapital && s[1]?.any isCapital && s[2]?.any isSmall

variable {marks : List Char → Bool} {a b c : Char} {s rest tail : List Char}

/-! ### Classes of characters -/

theorem not_isDigit_of_isCapital (h : isCapital c = true) : isDigit c = false :=
  of_codes (P := fun c => isDigit c = false) (by decide) (isCapital_iff.mp h)

theorem not_isSmall_of_isCapital (h : isCapital c = true) : isSmall c = false := by
  refine Bool.eq_false_iff.mpr fun small => ?_
  have capital := isCapital_iff.mp h
  have small := isSmall_iff.mp small
  omega

theorem not_endsWord_of_isCapital (h : isCapital c = true) : endsWord c = false := by
  rw [endsWord, not_isSmall_of_isCapital h, not_isDigit_of_isCapital h, Bool.or_false]

theorem not_isCapital_underscore : isCapital '_' = false := by decide

theorem not_endsWord_underscore : endsWord '_' = false := by decide

theorem not_isCapital_of_isSmall (h : isSmall c = true) : isCapital c = false :=
  Bool.eq_false_iff.mpr fun capital =>
    Bool.false_ne_true ((not_isSmall_of_isCapital capital).symm.trans h)

/-! ### Marks -/

theorem markBy_cons (h : marks (c :: rest) = false) :
    markBy marks (c :: rest) = c :: markBy marks rest := by
  rw [markBy, h]
  rfl

theorem markBy_cons_of_marked (h : marks (c :: rest) = true) :
    markBy marks (c :: rest) = c :: '_' :: markBy marks rest := by
  rw [markBy, h]
  rfl

theorem head?_markBy (marks : List Char → Bool) (s : List Char) :
    (markBy marks s)[0]? = s[0]? := by
  cases s with
  | nil => rfl
  | cons c rest =>
      rw [markBy]
      cases marks (c :: rest) <;> rfl

theorem isBoundary_zero (s : List Char) :
    isBoundary s 0 = (beginsAcronymEnd s || beginsWordEnd s) := Bool.or_comm _ _

theorem markPositions_cons (c : Char) (rest : List Char) : markPositions (c :: rest) =
    (if isBoundary (c :: rest) 0 then [c, '_'] else [c]) ++ markPositions rest := by
  rw [markPositions, List.zipIdx_cons, List.flatMap_cons, List.zipIdx_succ, List.flatMap_map]
  rfl

theorem markPositions_eq (s : List Char) :
    markPositions s = markBy (fun t => beginsAcronymEnd t || beginsWordEnd t) s := by
  induction s with
  | nil => rfl
  | cons c rest ih => rw [markPositions_cons, ih, isBoundary_zero, markBy]

theorem markPositions_cons_of_next (next : ∀ a ∈ rest.head?, isCapital a = false) :
    markPositions (c :: rest) = c :: markPositions rest := by
  have unmarked : isBoundary (c :: rest) 0 = false := by
    cases rest with
    | nil => simp [isBoundary]
    | cons a others => simp [isBoundary, next a rfl]
  rw [markPositions_cons, unmarked, if_neg Bool.false_ne_true, List.singleton_append]

theorem markPositions_cons_of_endsWord (ends : endsWord c = true) (capital : isCapital a = true) :
    markPositions (c :: a :: rest) = c :: '_' :: markPositions (a :: rest) := by
  have marked : isBoundary (c :: a :: rest) 0 = true := by
    simp only [endsWord, Bool.or_eq_true] at ends
    simp [isBoundary, ends, capital]
  rw [markPositions_cons, marked, if_pos rfl]
  rfl

theorem markPositions_underscore (rest : List Char) :
    markPositions ('_' :: rest) = '_' :: markPositions rest := by
  have unmarked : isBoundary ('_' :: rest) 0 = false := by
    have other : (isSmall '_' || isDigit '_') = false := not_endsWord_underscore
    simp [isBoundary, other, not_isCapital_underscore]
  rw [markPositions_cons, unmarked, if_neg Bool.false_ne_true, List.singleton_append]

/-- The marked name has the characters of the name, and underscores. -/
theorem mem_or_eq_of_mem_markPositions (h : c ∈ markPositions s) : c ∈ s ∨ c = '_' := by
  obtain ⟨⟨a, i⟩, member, h⟩ := List.mem_flatMap.mp h
  have there : a ∈ s := List.fst_mem_of_mem_zipIdx member
  dsimp only at h
  split_ifs at h
  · rcases List.mem_cons.mp h with rfl | mark
    · exact Or.inl there
    · exact Or.inr (List.mem_singleton.mp mark)
  · exact Or.inl (List.mem_singleton.mp h ▸ there)

theorem markPositions_eq_self (small : ∀ a ∈ s, isCapital a = false) : markPositions s = s := by
  have unmarked (i : Nat) : isBoundary s i = false := by
    have next : s[i + 1]?.any isCapital = false := by
      cases there : s[i + 1]? with
      | none => rfl
      | some a => exact small a (List.mem_of_getElem? there)
    simp only [isBoundary, next, Bool.and_false, Bool.false_and, Bool.or_false]
  calc markPositions s
    _ = s.zipIdx.flatMap fun (c, _) => [c] := by simp only [markPositions, unmarked]; rfl
    _ = s := by rw [← List.map_eq_flatMap]; exact List.zipIdx_map_fst 0 s

/-! ### The passes -/

/-- Looking for a capital behind the end of a word marks every such place. -/
theorem replaceAll_wordEnd (s : List Char) : replaceAll wordEnd s = markBy beginsWordEnd s := by
  refine replaceAll_eq rfl (fun c rest unmatched => ?_)
    (fun c rest replacement covered matched => ?_) s
  · refine markBy_cons ?_
    cases rest with
    | nil => simp [beginsWordEnd]
    | cons capital tail => simpa [wordEnd, beginsWordEnd] using unmatched
  · cases rest with
    | nil => cases matched
    | cons capital tail =>
        obtain ⟨⟨ends, starts⟩, rfl, rfl⟩ :
            (endsWord c = true ∧ isCapital capital = true) ∧
              [c, '_', capital] = replacement ∧ 2 = covered := by
          simpa [wordEnd] using matched
        rw [markBy_cons_of_marked (by simp [beginsWordEnd, ends, starts]),
          markBy_cons (by simp [beginsWordEnd, not_endsWord_of_isCapital starts])]
        rfl

/-- An acronym that runs into a word is marked in front of its last capital only. -/
theorem markBy_beginsAcronymEnd {init : List Char} {last small : Char} {after : List Char}
    (ne : init ≠ []) (capitals : ∀ a ∈ init, isCapital a = true) (capital : isCapital last = true)
    (ends : isSmall small = true) : markBy beginsAcronymEnd (init ++ last :: small :: after) =
      init ++ '_' :: last :: small :: markBy beginsAcronymEnd after := by
  have none : isCapital small = false := not_isCapital_of_isSmall ends
  induction init with
  | nil => exact absurd rfl ne
  | cons a others ih =>
      obtain ⟨first, later⟩ := List.forall_mem_cons.mp capitals
      cases others with
      | nil =>
          rw [List.singleton_append, List.singleton_append,
            markBy_cons_of_marked (by simp [beginsAcronymEnd, first, capital, ends]),
            markBy_cons (by simp [beginsAcronymEnd, none]),
            markBy_cons (by simp [beginsAcronymEnd, none])]
      | cons b more =>
          -- The third character is a capital, so the mark is not here yet.
          have third : ((a :: b :: more) ++ last :: small :: after)[2]?.any isSmall = false := by
            cases more with
            | nil => simpa using not_isSmall_of_isCapital capital
            | cons d _ => simpa using not_isSmall_of_isCapital (later d (by simp))
          rw [List.cons_append, markBy_cons (by rw [beginsAcronymEnd, ← List.cons_append, third,
            Bool.and_false]), ih (List.cons_ne_nil _ _) later]
          rfl

theorem acronymEnd_ne_none (h : beginsAcronymEnd s = true) : acronymEnd s ≠ none := by
  match s with
  | [] | [_] | [_, _] => simp [beginsAcronymEnd] at h
  | a :: b :: c :: rest =>
      obtain ⟨⟨first, second⟩, third⟩ :
          (isCapital a = true ∧ isCapital b = true) ∧ isSmall c = true := by
        simpa [beginsAcronymEnd] using h
      simp [acronymEnd, first, second, third, not_isCapital_of_isSmall third]

theorem acronymEnd_eq_some {replacement : List Char} {covered : Nat}
    (h : acronymEnd s = some (replacement, covered)) :
    ∃ init last small after, s = init ++ last :: small :: after ∧ init ≠ [] ∧
      (∀ a ∈ init, isCapital a = true) ∧ isCapital last = true ∧ isSmall small = true ∧
      replacement = init ++ ['_', last, small] ∧ covered = init.length + 2 := by
  have split := List.takeWhile_append_dropWhile (p := isCapital) (l := s)
  have capitals : ∀ a ∈ s.takeWhile isCapital, isCapital a = true :=
    List.all_eq_true.mp List.all_takeWhile
  unfold acronymEnd at h
  generalize s.takeWhile isCapital = run at h split capitals
  generalize s.dropWhile isCapital = others at h split
  cases others with
  | nil => cases h
  | cons small after =>
      obtain ⟨⟨ends, long⟩, rfl, rfl⟩ : (isSmall small = true ∧ 2 ≤ run.length) ∧
          run.dropLast ++ '_' :: (run.drop (run.length - 1) ++ [small]) = replacement ∧
            run.length + 1 = covered := by
        simpa using h
      cases run using List.reverseRecOn with
      | nil => simp at long
      | append_singleton init last =>
          obtain ⟨before, capital⟩ := List.forall_mem_append.mp capitals
          refine ⟨init, last, small, after, by simp [← split], ?_, before, by simpa using capital,
            ends, by simp, by simp⟩
          rintro rfl
          simp at long

/-- Looking for the ends of acronyms marks every such place. -/
theorem replaceAll_acronymEnd (s : List Char) :
    replaceAll acronymEnd s = markBy beginsAcronymEnd s := by
  refine replaceAll_eq rfl (fun c rest unmatched => ?_)
    (fun c rest replacement covered matched => ?_) s
  · exact markBy_cons (Bool.eq_false_iff.mpr fun h => acronymEnd_ne_none h unmatched)
  · obtain ⟨init, last, small, after, split, ne, capitals, capital, ends, rfl, rfl⟩ :=
      acronymEnd_eq_some matched
    have behind : rest.drop (init.length + 2 - 1) = after :=
      calc rest.drop (init.length + 2 - 1)
        _ = (c :: rest).drop (init.length + 2) := rfl
        _ = after := by rw [split, ← List.drop_drop, List.drop_left]; rfl
    rw [behind, split, markBy_beginsAcronymEnd ne capitals capital ends, List.append_assoc]
    rfl

/-- The end of a word is found in the same places whether or not acronyms are marked: a mark comes
between two capitals, of which the first ends no word. -/
theorem markBy_markBy (s : List Char) :
    markBy beginsWordEnd (markBy beginsAcronymEnd s) =
      markBy (fun t => beginsAcronymEnd t || beginsWordEnd t) s := by
  induction s with
  | nil => rfl
  | cons c rest ih =>
      cases marked : beginsAcronymEnd (c :: rest) with
      | true =>
          have capital : endsWord c = false := not_endsWord_of_isCapital (by
            simp only [beginsAcronymEnd, Bool.and_eq_true] at marked
            simpa using marked.1.1)
          rw [markBy_cons_of_marked marked, markBy_cons (by simp [beginsWordEnd, capital]),
            markBy_cons (by simp [beginsWordEnd, not_endsWord_underscore]), ih,
            markBy_cons_of_marked (by simp [marked])]
      | false =>
          have same : beginsWordEnd (c :: markBy beginsAcronymEnd rest) =
              beginsWordEnd (c :: rest) := by
            simp only [beginsWordEnd, List.getElem?_cons_zero, List.getElem?_cons_succ,
              head?_markBy]
          rw [markBy_cons marked, markBy, markBy, same, marked, Bool.false_or, ih]

theorem markBoundaries_eq (name : List Char) : markBoundaries name = markPositions name := by
  rw [markBoundaries, replaceAll_acronymEnd, replaceAll_wordEnd, markBy_markBy, markPositions_eq]

/-- **Snake case is told position by position.**  The name without blanks at its ends, with one
underscore for every longest run of separators, gets an underscore behind each position where a word
ends, all at once; then it is lowered and loses the underscores at its ends. -/
theorem snakeCase_eq_markPositions (name : List Char) :
    snakeCase name = trimBy (· == '_') (lower (markPositions (joinRuns (trim name)))) := by
  rw [snakeCase, joinSeparators_eq, markBoundaries_eq]

/-- An acronym that runs into a word, a digit in front of a capital and a run of separators. -/
example : snakeCase "HTTPTo2Go - v".toList = "http_to2_go_v".toList := by decide +kernel

end Preferences.Naming

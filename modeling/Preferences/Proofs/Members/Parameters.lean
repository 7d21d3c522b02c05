import Mathlib.Data.List.TakeWhile
import Preferences.Proofs.Members.Accessors
import Preferences.Proofs.Naming.Boundaries
import Preferences.Proofs.Naming.LowerCase

/-! # Which parameters are identifiers

The parameter of a setter comes from the name of its preference by lower case and, in snake case,
without the underscores at both ends.  Lower case keeps the characters of an identifier, and turns
letters to letters only (`Replaces`, `replaces_lowerBetween`), so a name that is an identifier gives
one in camel case (`isIdentifier_lowerFirst`); in snake case what follows its leading underscores
has to begin as an identifier does (`isIdentifier_snakeCase_iff`).  A parameter is never a keyword
nor one of the names that the body of a setter uses (`parameterName_usable_iff`). -/

namespace Preferences.Text

/-- The code points of the ranges, as the bits of a number. -/
def CodeRanges.spanned (ranges : CodeRanges) : Nat :=
  ranges.foldr (fun range rest => (2 ^ (range.2 + 1 - range.1) - 1) <<< range.1 ||| rest) 0

theorem CodeRanges.testBit_spanned {ranges : CodeRanges} {n : Nat} :
    ranges.spanned.testBit n = true ↔ ∃ range ∈ ranges, range.1 ≤ n ∧ n ≤ range.2 := by
  induction ranges with
  | nil => simp [spanned]
  | cons range rest ih =>
      have first : ((2 ^ (range.2 + 1 - range.1) - 1) <<< range.1).testBit n = true ↔
          range.1 ≤ n ∧ n ≤ range.2 := by
        rw [Nat.testBit_shiftLeft, Nat.testBit_two_pow_sub_one, Bool.and_eq_true, decide_eq_true_eq,
          decide_eq_true_eq]
        omega
      rw [spanned, List.foldr_cons, Nat.testBit_or, Bool.or_eq_true, first,
        List.exists_mem_cons_iff, ← ih, spanned]

theorem CodeRanges.testBit_spanned_toNat {ranges : CodeRanges} {c : Char} :
    ranges.spanned.testBit c.toNat = ranges.has c := by
  rw [Bool.eq_iff_iff, testBit_spanned, CodeRanges.has, List.any_eq_true]
  simp only [Bool.and_eq_true, decide_eq_true_eq]

theorem testBit_of_land_eq {a b n : Nat} (h : a &&& b = a) (ha : a.testBit n = true) :
    b.testBit n = true := by
  rw [← h, Nat.testBit_and, Bool.and_eq_true] at ha
  exact ha.2

/-! ### Identifiers -/

variable {c : Char} {s tail : List Char}

/-- The characters that an identifier may start with, underscores apart, are among its parts. -/
theorem starts_land_parts :
    identifierStarts.spanned &&& identifierParts.spanned = identifierStarts.spanned := by
  decide +kernel

theorem starts_valid : identifierStarts.all (fun range =>
    range.2 < 0xd800 || (0xdfff < range.1 && range.2 < 0x110000)) = true := by decide +kernel

theorem underscore_part : continuesIdentifier '_' = true ∧ identifierStarts.has '_' = false := by
  decide +kernel

theorem continuesIdentifier_of_start (h : identifierStarts.has c = true) :
    continuesIdentifier c = true := by
  rw [← CodeRanges.testBit_spanned_toNat] at h
  rw [continuesIdentifier, ← CodeRanges.testBit_spanned_toNat]
  exact testBit_of_land_eq starts_land_parts h

theorem continuesIdentifier_of_starts (h : startsIdentifier c = true) :
    continuesIdentifier c = true := by
  rcases Bool.or_eq_true_iff.mp h with underscore | letter
  · rw [beq_iff_eq.mp underscore]
    exact underscore_part.1
  · exact continuesIdentifier_of_start letter

theorem has_ofNat_of_start {n : Nat} (h : identifierStarts.spanned.testBit n = true) :
    identifierStarts.has (Char.ofNat n) = true := by
  have valid : n.isValidChar := by
    obtain ⟨range, member, low, high⟩ := CodeRanges.testBit_spanned.mp h
    have known := List.all_eq_true.mp starts_valid range member
    simp only [Bool.or_eq_true, Bool.and_eq_true, decide_eq_true_eq] at known
    show n < 0xd800 ∨ 0xdfff < n ∧ n < 0x110000
    omega
  rw [← CodeRanges.testBit_spanned_toNat, Char.ofNat, dif_pos valid]
  exact h

theorem isIdentifier_iff :
    isIdentifier s = true ↔
      (∃ c ∈ s.head?, startsIdentifier c = true) ∧ ∀ c ∈ s, continuesIdentifier c = true := by
  cases s with
  | nil => simp [isIdentifier]
  | cons first rest =>
      rw [isIdentifier, Bool.and_eq_true, List.all_eq_true, List.forall_mem_cons]
      constructor
      · rintro ⟨starts, parts⟩
        exact ⟨⟨first, rfl, starts⟩, continuesIdentifier_of_starts starts, parts⟩
      · rintro ⟨⟨c, head, starts⟩, -, parts⟩
        obtain rfl := Option.some.inj head
        exact ⟨starts, parts⟩

theorem isIdentifier_append (ne : s ≠ []) (parts : ∀ c ∈ tail, continuesIdentifier c = true) :
    isIdentifier (s ++ tail) = isIdentifier s := by
  cases s with
  | nil => exact absurd rfl ne
  | cons first rest =>
      have more : tail.all continuesIdentifier = true := List.all_eq_true.mpr parts
      simp only [List.cons_append, isIdentifier, List.all_append, more, Bool.and_true]

end Preferences.Text

namespace Preferences.Naming

open Preferences.Text

variable {c d : Char} {s rest name front : List Char}

/-! ### Lower case of the parts of identifiers -/

/-- The characters can stand in an identifier where `c` does: they are parts of identifiers, and
begin with `c` itself or, if `c` is a letter, with a letter. -/
structure Replaces (s : List Char) (c : Char) : Prop where
  first : ∃ d ∈ s.head?, d = c ∨ identifierStarts.has d = true ∧ identifierStarts.has c = true
  parts : ∀ d ∈ s, continuesIdentifier d = true

/-- Each run of the lower case tables that maps a part of identifiers at all maps letters to letters
only. -/
theorem lowerRuns_letters : lowerRuns.all (fun r =>
    bits r.sources &&& identifierParts.spanned == 0 ||
      (bits r.sources ||| bits r.images) &&& identifierStarts.spanned ==
        bits r.sources ||| bits r.images) = true := by
  decide +kernel

/-- The letters with several letters in lower case begin with a letter and go on with parts. -/
theorem lowerSequences_letters : lowerSequences.all (fun entry =>
    identifierStarts.spanned.testBit entry.1 &&
      (entry.2.head?.any identifierStarts.spanned.testBit &&
        entry.2.all fun n => continuesIdentifier (Char.ofNat n))) = true := by
  decide +kernel

theorem parts_apart : identifierParts.spanned &&& separators = 0 := by decide +kernel

theorem not_isSeparator_of_part (part : continuesIdentifier c = true) : isSeparator c = false := by
  refine Bool.eq_false_iff.mpr fun separator => ?_
  rw [continuesIdentifier, ← CodeRanges.testBit_spanned_toNat] at part
  exact apart_of_land_eq_zero parts_apart part (testBit_separators separator)

theorem replaces_self (part : continuesIdentifier c = true) : Replaces [c] c :=
  ⟨⟨c, rfl, Or.inl rfl⟩, List.forall_mem_singleton.mpr part⟩

theorem replaces_singleton (letter : identifierStarts.has d = true)
    (was : identifierStarts.has c = true) : Replaces [d] c :=
  ⟨⟨d, rfl, Or.inr ⟨letter, was⟩⟩,
    List.forall_mem_singleton.mpr (continuesIdentifier_of_start letter)⟩

theorem replaces_mapCase (part : continuesIdentifier c = true) :
    Replaces (mapCase lowerRuns lowerSequences c) c := by
  unfold mapCase
  cases mapped : lowerRuns.findSome? (·.imageOf? c.toNat) with
  | some n =>
      obtain ⟨r, member, found⟩ := List.exists_of_findSome?_eq_some mapped
      obtain ⟨source, image⟩ := CaseRun.mem_of_imageOf? found
      -- The run maps a part of identifiers, so all it maps and all it maps to are letters.
      have meets : ¬bits r.sources &&& identifierParts.spanned = 0 := fun apart =>
        apart_of_land_eq_zero apart (testBit_bits.mpr source)
          (CodeRanges.testBit_spanned_toNat.trans part)
      have letters := List.all_eq_true.mp lowerRuns_letters r member
      rw [Bool.or_eq_true, beq_iff_eq, beq_iff_eq] at letters
      have letter {m : Nat} (within : m ∈ r.sources ∨ m ∈ r.images) :
          identifierStarts.spanned.testBit m = true := by
        refine testBit_of_land_eq (letters.resolve_left meets) ?_
        rwa [Nat.testBit_or, Bool.or_eq_true, testBit_bits, testBit_bits]
      refine replaces_singleton (has_ofNat_of_start (letter (Or.inr image))) ?_
      rw [← CodeRanges.testBit_spanned_toNat]
      exact letter (Or.inl source)
  | none =>
      cases listed : lowerSequences.lookup c.toNat with
      | none => exact replaces_self part
      | some ns =>
          obtain ⟨before, after, split, -⟩ := List.lookup_eq_some_iff.mp listed
          have letters := List.all_eq_true.mp lowerSequences_letters (c.toNat, ns) (by simp [split])
          simp only [Bool.and_eq_true] at letters
          obtain ⟨was, first, parts⟩ := letters
          refine ⟨?_, fun d member => ?_⟩
          · cases ns with
            | nil => simp at first
            | cons n others =>
                rw [CodeRanges.testBit_spanned_toNat] at was
                exact ⟨_, rfl, Or.inr ⟨has_ofNat_of_start first, was⟩⟩
          · obtain ⟨n, within, rfl⟩ := List.mem_map.mp member
            exact List.all_eq_true.mp parts n within

theorem starts_sigmas : identifierStarts.has 'Σ' = true ∧ identifierStarts.has 'σ' = true ∧
    identifierStarts.has 'ς' = true := by decide

/-- Lower case leaves a part of an identifier as it is, or turns letters to letters. -/
theorem replaces_lowerBetween {before after : List Char} (part : continuesIdentifier c = true) :
    Replaces (lowerBetween before c after) c := by
  unfold lowerBetween
  split_ifs with sigma final
  · rw [sigma]
    exact replaces_singleton starts_sigmas.2.2 starts_sigmas.1
  · rw [sigma]
    exact replaces_singleton starts_sigmas.2.1 starts_sigmas.1
  · exact replaces_mapCase part

namespace Replaces

theorem startsIdentifier_iff (h : Replaces s c) :
    (∃ d ∈ s.head?, startsIdentifier d = true) ↔ startsIdentifier c = true := by
  obtain ⟨d, head, same⟩ := h.first
  have first : (∃ e ∈ s.head?, startsIdentifier e = true) ↔ startsIdentifier d = true := by
    constructor
    · rintro ⟨e, other, starts⟩
      obtain rfl := Option.some.inj (head.symm.trans other)
      exact starts
    · exact fun starts => ⟨d, head, starts⟩
  rw [first]
  rcases same with rfl | ⟨letter, was⟩
  · rfl
  · simp [startsIdentifier, letter, was]

theorem head_ne_underscore (h : Replaces s c) (other : c ≠ '_') : ∀ d ∈ s.head?, d ≠ '_' := by
  rintro d head rfl
  obtain ⟨e, first, same⟩ := h.first
  obtain rfl := Option.some.inj (head.symm.trans first)
  rcases same with rfl | ⟨letter, -⟩
  · exact other rfl
  · exact Bool.false_ne_true (underscore_part.2.symm.trans letter)

end Replaces

theorem part_of_mem_lowerAfter {before : List Char}
    (parts : ∀ c ∈ s, continuesIdentifier c = true) :
    ∀ d ∈ lowerAfter before s, continuesIdentifier d = true := by
  induction s generalizing before with
  | nil => nofun
  | cons c after ih =>
      obtain ⟨first, later⟩ := List.forall_mem_cons.mp parts
      intro d member
      rcases List.mem_append.mp member with now | behind
      · exact (replaces_lowerBetween first).parts d now
      · exact ih later d behind

theorem isIdentifier_lowerFirst (valid : isIdentifier name = true) :
    isIdentifier (lower (name.take 1) ++ name.drop 1) = true := by
  cases name with
  | nil => cases valid
  | cons c rest =>
      obtain ⟨⟨d, head, starts⟩, parts⟩ := isIdentifier_iff.mp valid
      obtain rfl := Option.some.inj head
      obtain ⟨part, later⟩ := List.forall_mem_cons.mp parts
      have replaces : Replaces (lower [c]) c := by
        rw [lower, lowerAfter, lowerAfter, List.append_nil]
        exact replaces_lowerBetween part
      obtain ⟨d, first, starts⟩ := replaces.startsIdentifier_iff.mpr starts
      refine isIdentifier_iff.mpr ⟨⟨d, ?_, starts⟩, ?_⟩
      · show d ∈ (lower [c] ++ rest).head?
        rw [List.head?_append, first]
        rfl
      · exact List.forall_mem_append.mpr ⟨replaces.parts, later⟩

/-! ### Snake case of identifiers -/

theorem markPositions_append_underscores (underscores : ∀ c ∈ front, c = '_') (s : List Char) :
    markPositions (front ++ s) = front ++ markPositions s := by
  induction front with
  | nil => rfl
  | cons c rest ih =>
      obtain ⟨rfl, later⟩ := List.forall_mem_cons.mp underscores
      rw [List.cons_append, markPositions_underscore, ih later, List.cons_append]

theorem lowerAfter_append_underscores (underscores : ∀ c ∈ front, c = '_')
    (before s : List Char) :
    lowerAfter before (front ++ s) = front ++ lowerAfter (front.reverse ++ before) s := by
  induction front generalizing before with
  | nil => rfl
  | cons c rest ih =>
      obtain ⟨rfl, later⟩ := List.forall_mem_cons.mp underscores
      have stays : lowerBetween before '_' (rest ++ s) = ['_'] :=
        isLowered_of_lt (c := '_') (by decide) (by decide)
      rw [List.cons_append, lowerAfter, stays, ih later, List.reverse_cons, List.append_assoc,
        List.singleton_append, List.singleton_append, List.cons_append]

/-- Behind leading underscores the first other character stays the first. -/
theorem head?_trimBy_underscores (underscores : ∀ c ∈ front, c = '_') (head : s.head? = some d)
    (other : d ≠ '_') : (trimBy (· == '_') (front ++ s)).head? = some d := by
  have leading : (front ++ s).dropWhile (· == '_') = s := by
    rw [List.dropWhile_append_of_pos fun c member => beq_iff_eq.mpr (underscores c member)]
    cases s with
    | nil => rfl
    | cons c rest =>
        obtain rfl := Option.some.inj head
        exact List.dropWhile_cons_of_neg (by simpa using other)
  cases s with
  | nil => cases head
  | cons c rest =>
      obtain rfl := Option.some.inj head
      have kept : ∀ b ∈ [c].head?, (b == '_') = false := by
        rintro b ⟨⟩
        exact beq_false_of_ne other
      rw [trimBy, leading, List.reverse_cons, dropWhile_append_of_head? kept, List.reverse_append]
      rfl

theorem snakeCase_of_parts (parts : ∀ c ∈ name, continuesIdentifier c = true) :
    snakeCase name = trimBy (· == '_') (lower (markPositions name)) := by
  have together : ∀ c ∈ name, isSeparator c = false := fun c member =>
    not_isSeparator_of_part (parts c member)
  have trimmed : trim name = name := trimBy_eq_self
    (fun c head => not_isBlank_of_not_isSeparator (together c (List.mem_of_mem_head? head)))
    (fun c last => not_isBlank_of_not_isSeparator (together c (List.mem_of_mem_getLast? last)))
  rw [snakeCase_eq_markPositions, trimmed, joinRuns_eq_self together]

theorem parts_snakeCase (parts : ∀ c ∈ name, continuesIdentifier c = true) :
    ∀ c ∈ snakeCase name, continuesIdentifier c = true := by
  rw [snakeCase_of_parts parts]
  have marked : ∀ c ∈ markPositions name, continuesIdentifier c = true := by
    intro c member
    rcases mem_or_eq_of_mem_markPositions member with there | rfl
    · exact parts c there
    · exact underscore_part.1
  exact fun c member => part_of_mem_lowerAfter marked c (mem_of_mem_trimBy member)

/-- Snake case begins as the name does behind its leading underscores, in lower case. -/
theorem head?_snakeCase (parts : ∀ c ∈ name, continuesIdentifier c = true) :
    (∃ d ∈ (snakeCase name).head?, startsIdentifier d = true) ↔
      ∃ c ∈ (name.dropWhile (· == '_')).head?, startsIdentifier c = true := by
  have underscores : ∀ c ∈ name.takeWhile (· == '_'), c = '_' := fun c member =>
    beq_iff_eq.mp (List.all_eq_true.mp List.all_takeWhile c member)
  have others : ∀ c ∈ (name.dropWhile (· == '_')).head?, c ≠ '_' := fun c head =>
    beq_eq_false_iff_ne.mp (@eq_false_of_mem_head?_dropWhile (· == '_') c name head)
  have split := List.takeWhile_append_dropWhile (p := (· == '_')) (l := name)
  have lowered : lower (markPositions name) = name.takeWhile (· == '_') ++
      lowerAfter ((name.takeWhile (· == '_')).reverse ++ [])
        (markPositions (name.dropWhile (· == '_'))) := by
    conv_lhs => rw [← split]
    rw [markPositions_append_underscores underscores, lower,
      lowerAfter_append_underscores underscores]
  rw [snakeCase_of_parts parts, lowered]
  cases core : name.dropWhile (· == '_') with
  | nil =>
      have nothing : trimBy (· == '_') (name.takeWhile (· == '_') ++ []) = [] := by
        rw [List.append_nil, trimBy, List.dropWhile_eq_nil_iff.mpr fun c member =>
          beq_iff_eq.mpr (underscores c member)]
        rfl
      show (∃ d ∈ (trimBy (· == '_') (name.takeWhile (· == '_') ++ [])).head?, _) ↔ _
      rw [nothing]
  | cons c rest =>
      have part : continuesIdentifier c = true :=
        parts c ((List.dropWhile_suffix _).subset (core ▸ List.mem_cons_self))
      have other : c ≠ '_' := others c (core ▸ rfl)
      obtain ⟨marks, marked⟩ : ∃ marks, markPositions (c :: rest) = c :: marks := by
        rw [markPositions_cons]
        split <;> exact ⟨_, rfl⟩
      rw [marked, lowerAfter]
      have replaces : Replaces
          (lowerBetween ((name.takeWhile (· == '_')).reverse ++ []) c marks) c :=
        replaces_lowerBetween part
      obtain ⟨d, head, -⟩ := replaces.first
      have first : ∀ t,
          (lowerBetween ((name.takeWhile (· == '_')).reverse ++ []) c marks ++ t).head?
          = some d := fun t => by rw [List.head?_append, head]; rfl
      rw [head?_trimBy_underscores underscores (first _)
        (replaces.head_ne_underscore other d head), ← head, replaces.startsIdentifier_iff]
      simp

/-- A name made of parts of identifiers is an identifier in snake case exactly if, behind its
leading underscores, it begins as an identifier does. -/
theorem isIdentifier_snakeCase_iff (parts : ∀ c ∈ name, continuesIdentifier c = true) :
    isIdentifier (snakeCase name) = true ↔
      ∃ c ∈ (name.dropWhile (· == '_')).head?, startsIdentifier c = true := by
  rw [isIdentifier_iff, head?_snakeCase parts]
  exact and_iff_left (parts_snakeCase parts)

/-! ### Safe names -/

namespace Style

theorem not_isKeyword_append_underscore (s : List Char) : isKeyword (s ++ ['_']) = false := by
  have ends : keywords.all (fun word => word.toList.getLast? != some '_') = true := by decide
  refine Bool.eq_false_iff.mpr fun keyword => ?_
  obtain ⟨word, member, same⟩ := List.any_eq_true.mp keyword
  have last := List.all_eq_true.mp ends word member
  rw [beq_iff_eq.mp same, List.getLast?_append] at last
  simp at last

theorem not_isKeyword_safeName (s : List Char) : isKeyword (safeName s) = false := by
  unfold safeName
  split
  · exact not_isKeyword_append_underscore s
  · next free =>
      refine Bool.eq_false_iff.mpr fun keyword => free ?_
      rw [keyword, Bool.true_or]

theorem isIdentifier_safeName (s : List Char) : isIdentifier (safeName s) = isIdentifier s := by
  unfold safeName
  split
  · next guarded =>
      refine isIdentifier_append ?_ (List.forall_mem_singleton.mpr underscore_part.1)
      rintro rfl
      revert guarded
      decide
  · rfl

/-- In camel case every identifier gives a variable that is one; in snake case it has to begin as
one behind its leading underscores. -/
theorem isIdentifier_variableName_iff (style : Style) (valid : isIdentifier name = true) :
    isIdentifier (style.variableName name) = true ↔
      style = camel ∨ ∃ c ∈ (name.dropWhile (· == '_')).head?, startsIdentifier c = true := by
  cases style with
  | snake =>
      rw [variableName, isIdentifier_safeName,
        isIdentifier_snakeCase_iff (isIdentifier_iff.mp valid).2]
      exact (or_iff_right nofun).symm
  | camel =>
      rw [variableName, isIdentifier_safeName]
      exact iff_of_true (isIdentifier_lowerFirst valid) (Or.inl rfl)

end Style

end Preferences.Naming

namespace Preferences.Members

open Naming (Style)
open Text (isIdentifier isKeyword startsIdentifier)

variable {p : Preference} {name : String}

/-- The parameter is the variable of the style, or that variable with more characters behind it. -/
theorem parameterName_text (named : p.name = .text name) (style : Style) :
    ∃ tail, parameterName style p = .ok
        (String.ofList (style.variableName name.toList ++ tail)) ∧
      (tail = [] ∨ tail = "_value".toList ∧
        String.ofList (style.variableName name.toList) ∈
          [editorVariable, transactionVariable]) := by
  unfold parameterName
  rw [named, Style.variableOf, Except.map]
  split
  · next used =>
      refine ⟨"_value".toList, ?_, Or.inr ⟨rfl, by simpa using used⟩⟩
      rw [String.ofList_append, String.ofList_toList]
  · exact ⟨[], by rw [List.append_nil], Or.inl rfl⟩

/-- **A parameter is usable exactly if it is an identifier.**  For every name that is an identifier
the parameter of a setter is no keyword and none of the names that the body of the setter uses.  It
is an identifier itself in camel case; in snake case, which takes leading underscores away, exactly
if the name begins as an identifier does behind them.  Keywords and names are compared as texts
here, not in the compatibility normal form (NFKC) in which an interpreter compares them. -/
theorem parameterName_usable_iff (style : Style) (named : p.name = .text name)
    (valid : isIdentifier name.toList = true) :
    ∃ parameter, parameterName style p = .ok parameter ∧ isKeyword parameter.toList = false ∧
      parameter ∉ ["self", "editor", "transaction"] ∧
      (isIdentifier parameter.toList = true ↔ style = .camel ∨
        ∃ c ∈ (name.toList.dropWhile (· == '_')).head?, startsIdentifier c = true) := by
  obtain ⟨tail, made, known⟩ := parameterName_text named style
  refine ⟨_, made, ?_, parameterName_ok made, ?_⟩
  · rw [String.toList_ofList]
    rcases known with rfl | ⟨rfl, used⟩
    · rw [List.append_nil]
      cases style <;> exact Style.not_isKeyword_safeName _
    · rw [List.mem_pair] at used
      rcases used with same | same <;>
      · rw [← String.toList_ofList (l := style.variableName name.toList), same]
        decide
  · rw [String.toList_ofList, ← Style.isIdentifier_variableName_iff style valid]
    rcases known with rfl | ⟨rfl, used⟩
    · rw [List.append_nil]
    · rw [Text.isIdentifier_append]
      · intro none
        rw [none] at used
        revert used
        decide
      · exact List.all_eq_true.mp (by decide)

/-- A preference that is called after a keyword. -/
theorem parameterName_usable_iff_class :
    ∃ parameter, parameterName .snake
        { name := "class", valueType := "str", getter := { name := "get_class" } } = .ok parameter ∧
      isKeyword parameter.toList = false ∧ parameter ∉ ["self", "editor", "transaction"] ∧
      (isIdentifier parameter.toList = true ↔ Style.snake = .camel ∨
        ∃ c ∈ ("class".toList.dropWhile (· == '_')).head?, startsIdentifier c = true) :=
  parameterName_usable_iff .snake rfl (by decide)

/-- Without its leading underscore the name of a preference need not be an identifier. -/
theorem parameterName_not_identifier :
    isIdentifier "_2fa".toList = true ∧ isIdentifier "2fa".toList = false ∧
      parameterName .snake
        { name := "_2fa", valueType := "bool", getter := { name := "get_2fa" } } = .ok "2fa" := by
  decide +kernel

end Preferences.Members

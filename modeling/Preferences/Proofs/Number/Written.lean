import Mathlib.Data.List.TakeWhile
import Preferences.Proofs.Number.Nearest
import Preferences.Number.Numeral

/-! # Which texts are numerals

`readInt?` and `readFloat?` are told by what they accept: `WritesInt` and `WritesFloat` say which
texts write a number, and of which value, without saying how they are read.  White space may stand
around the numeral, digits and blanks of all scripts count as those of ASCII, and an underscore may
stand between two digits. -/

namespace Preferences.Numeral

open Preferences.Text

/-- The numeral is what the text is in ASCII, without the white space around it. -/
def IsNormal (s numeral : List Char) : Prop :=
  ∃ front back, s.mapM toAscii? = some (front ++ numeral ++ back) ∧
    (∀ c ∈ front ++ back, isSpace c = true) ∧
    (∀ c ∈ numeral.head?, isSpace c = false) ∧ ∀ c ∈ numeral.getLast?, isSpace c = false

/-- Every underscore stands between two digits. -/
def MarksBetween (text : List Char) : Prop :=
  ∀ front back, text = front ++ '_' :: back →
    (∃ c ∈ front.getLast?, isAsciiDigit c = true) ∧ ∃ c ∈ back.head?, isAsciiDigit c = true

/-- What may stand in front of the digits of a number, and whether it makes the number negative. -/
inductive IsSign : (sign : List Char) → (negative : Bool) → Prop
  | minus : IsSign ['-'] true
  | plus : IsSign ['+'] false
  | none : IsSign [] false

/-- One digit or more, and nothing else. -/
def AreDigits (digits : List Char) : Prop := digits ≠ [] ∧ ∀ c ∈ digits, isAsciiDigit c = true

/-- The number with its sign. -/
def signed (negative : Bool) (n : Nat) : Int := if negative then -n else n

/-- The text writes the integer, with no more digits than are read. -/
def WritesInt (s : List Char) (n : Int) : Prop :=
  ∃ sign body negative, IsNormal s (sign ++ body) ∧ IsSign sign negative ∧ MarksBetween body ∧
    AreDigits (body.filter (· != '_')) ∧ (body.filter (· != '_')).length ≤ 4300 ∧
    n = signed negative (Nat.ofDigitChars 10 (body.filter (· != '_')) 0)

/-- What may stand behind the digits of a decimal: nothing, or an exponent. -/
inductive IsPower : (tail : List Char) → (e : Int) → Prop
  | none : IsPower [] 0
  | power {mark sign digits negative} (letter : mark = 'e' ∨ mark = 'E')
    (signs : IsSign sign negative) (all : AreDigits digits) :
    IsPower (mark :: (sign ++ digits)) (signed negative (Nat.ofDigitChars 10 digits 0))

/-- The text writes the decimal `n * 10 ^ e`: digits, among which there may be a point, and perhaps
an exponent. -/
def WritesDecimal (text : List Char) (n : Nat) (e : Int) : Prop :=
  ∃ whole point fraction tail power, text = whole ++ (point ++ fraction ++ tail) ∧
    (point = ['.'] ∨ point = [] ∧ fraction = []) ∧ AreDigits (whole ++ fraction) ∧
    IsPower tail power ∧ n = Nat.ofDigitChars 10 (whole ++ fraction) 0 ∧
    e = power - fraction.length

/-- What a text without a sign writes, if the number is to have a sign: infinity, what is no number,
or the number nearest to a decimal. -/
inductive WritesMagnitude (negative : Bool) : (text : List Char) → (x : Binary64) → Prop
  | infinite {text} (word : String.ofList (text.map Char.toLower) ∈ ["inf", "infinity"]) :
    WritesMagnitude negative text (.infinite negative)
  | notANumber {text} (word : String.ofList (text.map Char.toLower) = "nan") :
    WritesMagnitude negative text (.notANumber 0)
  | decimal {text n e x} (decimal : WritesDecimal text n e)
    (rounds : x.Rounds negative (n * 10 ^ e)) : WritesMagnitude negative text x

/-- The text writes the floating-point number. -/
def WritesFloat (s : List Char) (x : Binary64) : Prop :=
  ∃ numeral sign body negative, IsNormal s numeral ∧ MarksBetween numeral ∧
    numeral.filter (· != '_') = sign ++ body ∧ IsSign sign negative ∧
    WritesMagnitude negative body x

variable {s numeral sign body text plain digits front back : List Char} {negative : Bool} {n : Int}
  {x : Binary64} {e : Int} {c : Char}

/-! ### White space around a numeral -/

theorem normal?_eq_some_iff : normal? s = some numeral ↔ IsNormal s numeral := by
  unfold normal?
  rw [Option.map_eq_some_iff]
  constructor
  · rintro ⟨ascii, mapped, rfl⟩
    refine ⟨ascii.takeWhile isSpace,
      ((ascii.dropWhile isSpace).reverse.takeWhile isSpace).reverse, ?_, ?_,
      fun c first => head?_trimBy first, fun c last => getLast?_trimBy last⟩
    · rw [mapped, trimBy, List.append_assoc, ← List.reverse_append,
        List.takeWhile_append_dropWhile, List.reverse_reverse, List.takeWhile_append_dropWhile]
    · rw [List.forall_mem_append]
      exact ⟨List.all_eq_true.mp List.all_takeWhile, fun c member =>
        List.all_eq_true.mp List.all_takeWhile c (List.mem_reverse.mp member)⟩
  · rintro ⟨front, back, mapped, spaces, first, last⟩
    refine ⟨_, mapped, ?_⟩
    obtain ⟨before, after⟩ := List.forall_mem_append.mp spaces
    by_cases empty : numeral = []
    · rw [empty, List.append_nil, trimBy, List.dropWhile_eq_nil_iff.mpr spaces]
      rfl
    · rw [trimBy_append empty first last, List.dropWhile_eq_nil_iff.mpr before,
        List.dropWhile_eq_nil_iff.mpr fun c member => after c (List.mem_reverse.mp member)]
      rw [List.reverse_nil, List.append_nil, List.nil_append]

/-! ### Underscores -/

theorem dropUnderscores?_cons (other : c ≠ '_') (previous : Option Char) (text : List Char) :
    dropUnderscores? previous (c :: text) =
      (dropUnderscores? (some c) text).map (c :: ·) := by
  rw [dropUnderscores?.eq_def]
  split
  · next same => cases same
  · next same => exact absurd (List.cons.inj same).1 other
  · next same =>
      obtain ⟨rfl, rfl⟩ := List.cons.inj same
      rfl

theorem dropUnderscores?_mark (previous : Option Char) (text : List Char) :
    dropUnderscores? previous ('_' :: text) = some plain ↔
      ((∃ c ∈ previous, isAsciiDigit c = true) ∧ ∃ c ∈ text.head?, isAsciiDigit c = true) ∧
        dropUnderscores? (some '_') text = some plain := by
  cases text with
  | nil => simp [dropUnderscores?]
  | cons c text => cases previous <;> simp [dropUnderscores?]

theorem getLast?_cons_or (d : Char) (front : List Char) (previous : Option Char) :
    (d :: front).getLast?.or previous = front.getLast?.or (some d) := by
  rw [List.getLast?_cons]
  cases front.getLast? <;> rfl

/-- A text is cut at an underscore in front of the rest, or within the rest. -/
theorem forall_cut_cons {d : Char} {P : List Char → List Char → Prop} :
    (∀ front back, d :: text = front ++ '_' :: back → P front back) ↔
      (d = '_' → P [] text) ∧ ∀ front back, text = front ++ '_' :: back → P (d :: front) back := by
  constructor
  · intro all
    exact ⟨fun mark => all [] text (by rw [mark, List.nil_append]),
      fun front back cut => all (d :: front) back (by rw [cut, List.cons_append])⟩
  · rintro ⟨first, rest⟩ front back cut
    cases front with
    | nil =>
        obtain ⟨rfl, rfl⟩ := List.cons.inj cut
        exact first rfl
    | cons c front =>
        obtain ⟨rfl, rfl⟩ := List.cons.inj cut
        exact rest front back rfl

/-- Underscores are dropped where each of them stands between two digits, the first of which may be
the character in front of the text. -/
theorem dropUnderscores?_eq_some_iff_of (previous : Option Char) :
    dropUnderscores? previous text = some plain ↔
      (∀ front back, text = front ++ '_' :: back →
        (∃ c ∈ front.getLast?.or previous, isAsciiDigit c = true) ∧
          ∃ c ∈ back.head?, isAsciiDigit c = true) ∧ plain = text.filter (· != '_') := by
  induction text generalizing previous plain with
  | nil =>
      refine ⟨fun read => ⟨fun front back cut => ?_, (Option.some.inj read).symm⟩, ?_⟩
      · exact absurd cut (by simp)
      · rintro ⟨-, rfl⟩
        rfl
  | cons d text ih =>
      rw [forall_cut_cons]
      simp only [getLast?_cons_or]
      by_cases mark : d = '_'
      · subst mark
        rw [dropUnderscores?_mark, ih]
        simp [and_assoc]
      · rw [dropUnderscores?_cons mark, Option.map_eq_some_iff]
        have kept : (d :: text).filter (· != '_') = d :: text.filter (· != '_') :=
          List.filter_cons_of_pos (by simpa using mark)
        simp only [ih, mark, false_implies, true_and, kept]
        constructor
        · rintro ⟨_, ⟨between, rfl⟩, rfl⟩
          exact ⟨between, rfl⟩
        · rintro ⟨between, rfl⟩
          exact ⟨_, ⟨between, rfl⟩, rfl⟩

theorem dropUnderscores?_eq_some_iff :
    dropUnderscores? none text = some plain ↔
      MarksBetween text ∧ plain = text.filter (· != '_') := by
  rw [dropUnderscores?_eq_some_iff_of]
  simp only [Option.or_none]
  rfl

/-! ### Signs and digits -/

theorem splitSign_eq_iff :
    splitSign s = (negative, body) ↔ ∃ sign, s = sign ++ body ∧ IsSign sign negative ∧
      (sign = [] → ∀ c ∈ body.head?, c ≠ '-' ∧ c ≠ '+') := by
  constructor
  · intro split
    unfold splitSign at split
    split at split
    · obtain ⟨rfl, rfl⟩ := Prod.mk.inj split
      exact ⟨['-'], rfl, .minus, nofun⟩
    · obtain ⟨rfl, rfl⟩ := Prod.mk.inj split
      exact ⟨['+'], rfl, .plus, nofun⟩
    · next minus plus =>
        obtain ⟨rfl, rfl⟩ := Prod.mk.inj split
        refine ⟨[], rfl, .none, fun _ c first => ?_⟩
        obtain ⟨rest, rfl⟩ := List.head?_eq_some_iff.mp first
        exact ⟨fun same => minus rest (by rw [same]), fun same => plus rest (by rw [same])⟩
  · rintro ⟨sign, rfl, ⟨⟩ | ⟨⟩ | ⟨⟩, unsigned⟩
    · rfl
    · rfl
    · rw [List.nil_append]
      unfold splitSign
      split
      · exact absurd rfl (unsigned rfl '-' rfl).1
      · exact absurd rfl (unsigned rfl '+' rfl).2
      · rfl

/-- Where something follows the sign that is no sign itself, it is found. -/
theorem splitSign_append (signs : IsSign sign negative)
    (unsigned : ∀ c ∈ body.head?, c ≠ '-' ∧ c ≠ '+') :
    splitSign (sign ++ body) = (negative, body) :=
  splitSign_eq_iff.mpr ⟨sign, rfl, signs, fun _ => unsigned⟩

theorem unsigned_of_isAsciiDigit (digit : isAsciiDigit c = true) : c ≠ '-' ∧ c ≠ '+' := by
  constructor <;> rintro rfl <;> exact absurd digit (by decide)

theorem areDigits_iff :
    ¬(digits.isEmpty || !digits.all isAsciiDigit) = true ↔ AreDigits digits := by
  simp [AreDigits]

/-- **Integers.**  What is read is what the text writes, and nothing else is read. -/
theorem readInt?_eq_some_iff : readInt? s = some n ↔ WritesInt s n := by
  have accepted : ∀ digits : List Char,
      ¬(digits.isEmpty || !digits.all isAsciiDigit || maxDigits < digits.length) = true ↔
        AreDigits digits ∧ digits.length ≤ 4300 := by
    intro digits
    rw [Bool.or_eq_true, not_or, areDigits_iff, decide_eq_true_iff, Nat.not_lt]
    rfl
  unfold readInt?
  simp only [Option.bind_eq_bind, Option.bind_eq_some_iff]
  constructor
  · rintro ⟨numeral, normal, digits, dropped, read⟩
    obtain ⟨sign, numeral_eq, signs, -⟩ := splitSign_eq_iff.mp
      (Prod.mk.eta (p := splitSign numeral)).symm
    obtain ⟨between, rfl⟩ := dropUnderscores?_eq_some_iff.mp dropped
    rw [ite_eq_iff] at read
    obtain ⟨-, nothing⟩ | ⟨allowed, value⟩ := read
    · cases nothing
    · obtain ⟨all, short⟩ := (accepted _).mp allowed
      refine ⟨sign, _, _, ?_, signs, between, all, short, (Option.some.inj value).symm⟩
      rw [← numeral_eq]
      exact normal?_eq_some_iff.mp normal
  · rintro ⟨sign, body, negative, normal, signs, between, all, short, rfl⟩
    have unsigned : ∀ c ∈ body.head?, c ≠ '-' ∧ c ≠ '+' := by
      intro c first
      by_cases mark : c = '_'
      · rw [mark]
        decide
      · exact unsigned_of_isAsciiDigit (all.2 c (List.mem_filter.mpr
          ⟨List.mem_of_mem_head? first, by simpa using mark⟩))
    refine ⟨_, normal?_eq_some_iff.mpr normal, body.filter (· != '_'), ?_, ?_⟩
    · rw [splitSign_append signs unsigned]
      exact dropUnderscores?_eq_some_iff.mpr ⟨between, rfl⟩
    · rw [splitSign_append signs unsigned]
      exact if_neg ((accepted _).mpr ⟨all, short⟩)

/-! ### Decimals -/

theorem readExponent?_cons {letter : Char} (mark : letter = 'e' ∨ letter = 'E') :
    readExponent? (letter :: text) = some e ↔
      AreDigits (splitSign text).2 ∧
        e = signed (splitSign text).1 (Nat.ofDigitChars 10 (splitSign text).2 0) := by
  have mark : (letter == 'e' || letter == 'E') = true := by simpa using mark
  unfold readExponent?
  simp only [mark, if_true]
  rw [ite_eq_iff, areDigits_iff]
  constructor
  · rintro (⟨-, nothing⟩ | ⟨all, value⟩)
    · cases nothing
    · exact ⟨all, (Option.some.inj value).symm⟩
  · rintro ⟨all, rfl⟩
    exact Or.inr ⟨all, rfl⟩

theorem readExponent?_eq_some_iff : readExponent? text = some e ↔ IsPower text e := by
  constructor
  · intro read
    cases text with
    | nil =>
        obtain rfl := Option.some.inj read
        exact .none
    | cons letter rest =>
        by_cases mark : letter = 'e' ∨ letter = 'E'
        · obtain ⟨all, rfl⟩ := (readExponent?_cons mark).mp read
          obtain ⟨sign, rest_eq, signs, -⟩ := splitSign_eq_iff.mp
            (Prod.mk.eta (p := splitSign rest)).symm
          have power := IsPower.power mark signs all
          rw [← rest_eq] at power
          exact power
        · unfold readExponent? at read
          dsimp only at read
          rw [if_neg (by simpa using mark)] at read
          cases read
  · intro power
    cases power with
    | none => rfl
    | power mark signs all =>
      rw [readExponent?_cons mark, splitSign_append signs
        fun c first => unsigned_of_isAsciiDigit (all.2 c (List.mem_of_mem_head? first))]
      exact ⟨all, rfl⟩

theorem takeWhile_digits (all : ∀ c ∈ digits, isAsciiDigit c = true)
    (ends : ∀ c ∈ back.head?, isAsciiDigit c = false) :
    (digits ++ back).takeWhile isAsciiDigit = digits ∧
      (digits ++ back).dropWhile isAsciiDigit = back := by
  rw [List.takeWhile_append_of_pos all, List.dropWhile_append_of_pos all]
  cases back with
  | nil => exact ⟨List.append_nil _, rfl⟩
  | cons c back =>
      have other := ends c rfl
      simp [other]

theorem IsPower.head (h : IsPower text e) : ∀ c ∈ text.head?, isAsciiDigit c = false ∧ c ≠ '.' := by
  rintro c first
  cases h with
  | none => cases first
  | power letter =>
      obtain rfl := Option.some.inj first
      rcases letter with rfl | rfl <;> decide

/-- A fraction is split off where its point and its digits are. -/
theorem splitFraction_append {point : List Char}
    (marked : point = ['.'] ∨ point = [] ∧ digits = [])
    (all : ∀ c ∈ digits, isAsciiDigit c = true)
    (ends : ∀ c ∈ back.head?, isAsciiDigit c = false ∧ c ≠ '.') :
    splitFraction (point ++ digits ++ back) = (digits, back) := by
  rcases marked with rfl | ⟨rfl, rfl⟩
  · obtain ⟨digits_eq, back_eq⟩ := takeWhile_digits all fun c first => (ends c first).1
    exact Prod.ext digits_eq back_eq
  · rw [List.append_nil, List.nil_append]
    unfold splitFraction
    split
    · exact absurd rfl (ends '.' rfl).2
    · rfl

theorem exists_eq_splitFraction (text : List Char) :
    ∃ point, text = point ++ (splitFraction text).1 ++ (splitFraction text).2 ∧
      (point = ['.'] ∨ point = [] ∧ (splitFraction text).1 = []) ∧
      ∀ c ∈ (splitFraction text).1, isAsciiDigit c = true := by
  unfold splitFraction
  split
  · next rest =>
      refine ⟨['.'], ?_, Or.inl rfl, List.all_eq_true.mp List.all_takeWhile⟩
      rw [List.append_assoc, List.takeWhile_append_dropWhile]
      rfl
  · exact ⟨[], rfl, Or.inr ⟨rfl, rfl⟩, nofun⟩

theorem readDecimal?_eq_some_iff :
    readDecimal? negative text = some x ↔
      ∃ n e, WritesDecimal text n e ∧ x = .ofDecimal negative n e := by
  have nonempty : ∀ whole fraction : List Char,
      ¬(whole.isEmpty && fraction.isEmpty) = true ↔ whole ++ fraction ≠ [] := by
    simp
  unfold readDecimal?
  dsimp only
  rw [ite_eq_iff, nonempty]
  simp only [Option.bind_eq_bind, Option.bind_eq_some_iff, readExponent?_eq_some_iff,
    Option.some.injEq]
  constructor
  · rintro (⟨-, nothing⟩ | ⟨some_digits, power, scaled, rfl⟩)
    · cases nothing
    · obtain ⟨point, rest, marked, all⟩ :=
        exists_eq_splitFraction (text.dropWhile isAsciiDigit)
      refine ⟨_, _, ⟨text.takeWhile isAsciiDigit, point, _, _, power, ?_, marked,
        ⟨some_digits, ?_⟩, scaled, rfl, rfl⟩, rfl⟩
      · rw [← rest, List.takeWhile_append_dropWhile]
      · exact List.forall_mem_append.mpr ⟨List.all_eq_true.mp List.all_takeWhile, all⟩
  · rintro ⟨_, _, ⟨whole, point, fraction, tail, power, rfl, marked, ⟨some_digits, all⟩, scaled,
      rfl, rfl⟩, rfl⟩
    obtain ⟨digit, digit'⟩ := List.forall_mem_append.mp all
    have ends : ∀ c ∈ (point ++ fraction ++ tail).head?, isAsciiDigit c = false := by
      rcases marked with rfl | ⟨rfl, rfl⟩
      · simp [isAsciiDigit]
      · exact fun c first => (scaled.head c first).1
    obtain ⟨whole_eq, rest_eq⟩ := takeWhile_digits digit ends
    rw [whole_eq, rest_eq, splitFraction_append marked digit' scaled.head]
    exact Or.inr ⟨some_digits, power, scaled, rfl⟩

/-! ### Words and decimals -/

theorem WritesDecimal.head {m : Nat} (h : WritesDecimal text m e) :
    ∃ c ∈ text.head?, isAsciiDigit c = true ∨ c = '.' := by
  obtain ⟨whole, point, fraction, tail, power, rfl, marked, ⟨some_digits, all⟩, -⟩ := h
  cases whole with
  | cons c whole => exact ⟨c, rfl, Or.inl (all c List.mem_cons_self)⟩
  | nil =>
      rcases marked with rfl | ⟨rfl, rfl⟩
      · exact ⟨'.', rfl, Or.inr rfl⟩
      · exact absurd rfl some_digits

theorem head?_of_word {word : String} (h : String.ofList (text.map Char.toLower) = word) :
    text.head?.map Char.toLower = word.toList.head? := by
  rw [← h, String.toList_ofList, List.head?_map]

/-- No word begins as a decimal does. -/
theorem toLower_ne (h : isAsciiDigit c = true ∨ c = '.') :
    c.toLower ≠ 'i' ∧ c.toLower ≠ 'n' := by
  have same : c.toLower = c := by
    refine dif_neg fun upper => ?_
    rcases h with digit | rfl
    · simp only [isAsciiDigit, Bool.and_eq_true, decide_eq_true_eq] at digit
      exact absurd (Nat.le_trans upper.1 digit.2) (by decide)
    · exact absurd upper (by decide)
  rw [same]
  constructor <;> rintro rfl <;> exact absurd h (by decide)

theorem WritesDecimal.word_ne {m : Nat} (h : WritesDecimal text m e) :
    ∀ word ∈ ["inf", "infinity", "nan"], String.ofList (text.map Char.toLower) ≠ word := by
  intro word member same
  obtain ⟨c, first, kind⟩ := h.head
  have lower := head?_of_word same
  rw [first, Option.map_some] at lower
  obtain ⟨notI, notN⟩ := toLower_ne kind
  simp only [List.mem_cons, List.not_mem_nil, or_false] at member
  rcases member with rfl | rfl | rfl
  · exact notI (Option.some.inj lower)
  · exact notI (Option.some.inj lower)
  · exact notN (Option.some.inj lower)

theorem readMagnitude_eq_some_iff :
    (if String.ofList (text.map Char.toLower) == "inf" ||
        String.ofList (text.map Char.toLower) == "infinity" then
      some (Binary64.infinite negative)
    else if String.ofList (text.map Char.toLower) == "nan" then some (Binary64.notANumber 0)
    else readDecimal? negative text) = some x ↔ WritesMagnitude negative text x := by
  simp only [Bool.or_eq_true, beq_iff_eq]
  constructor
  · intro read
    split_ifs at read with infinite nan
    · obtain rfl := Option.some.inj read
      exact .infinite (by simpa using infinite)
    · obtain rfl := Option.some.inj read
      exact .notANumber nan
    · obtain ⟨n, e, decimal, rfl⟩ := readDecimal?_eq_some_iff.mp read
      exact .decimal decimal (Binary64.ofDecimal_rounds negative n e)
  · intro writes
    cases writes with
    | infinite word => rw [if_pos (by simpa using word)]
    | notANumber word =>
        rw [word]
        rfl
    | decimal decimal rounds =>
        have other := decimal.word_ne
        rw [if_neg (by simp [other "inf", other "infinity"]), if_neg (other "nan" (by simp))]
        exact readDecimal?_eq_some_iff.mpr
          ⟨_, _, decimal, Binary64.rounds_iff_eq_ofDecimal.mp rounds⟩

theorem WritesMagnitude.unsigned (h : WritesMagnitude negative text x) :
    ∀ c ∈ text.head?, c ≠ '-' ∧ c ≠ '+' := by
  intro c first
  have not_word : ∀ word : String, (∃ d ∈ word.toList.head?, d ≠ '-' ∧ d ≠ '+') →
      String.ofList (text.map Char.toLower) = word → c ≠ '-' ∧ c ≠ '+' := by
    rintro word ⟨d, head, other⟩ same
    have lower := head?_of_word same
    rw [first, head, Option.map_some] at lower
    constructor <;> rintro rfl
    · exact other.1 (Option.some.inj lower).symm
    · exact other.2 (Option.some.inj lower).symm
  cases h with
  | infinite word =>
      simp only [List.mem_cons, List.not_mem_nil, or_false] at word
      rcases word with word | word
      · exact not_word "inf" (by simp) word
      · exact not_word "infinity" (by simp) word
  | notANumber word => exact not_word "nan" (by simp) word
  | decimal decimal =>
      obtain ⟨d, head, kind⟩ := decimal.head
      obtain rfl := Option.some.inj (first.symm.trans head)
      rcases kind with digit | rfl
      · exact unsigned_of_isAsciiDigit digit
      · decide

/-- **Floating-point numbers.**  What is read is what the text writes, and nothing else is read. -/
theorem readFloat?_eq_some_iff : readFloat? s = some x ↔ WritesFloat s x := by
  unfold readFloat?
  simp only [Option.bind_eq_bind, Option.bind_eq_some_iff, readMagnitude_eq_some_iff]
  constructor
  · rintro ⟨numeral, normal, plain, dropped, writes⟩
    obtain ⟨between, rfl⟩ := dropUnderscores?_eq_some_iff.mp dropped
    obtain ⟨sign, plain_eq, signs, -⟩ := splitSign_eq_iff.mp
      (Prod.mk.eta (p := splitSign (numeral.filter (· != '_')))).symm
    exact ⟨numeral, sign, _, _, normal?_eq_some_iff.mp normal, between, plain_eq, signs, writes⟩
  · rintro ⟨numeral, sign, body, negative, normal, between, plain_eq, signs, writes⟩
    refine ⟨numeral, normal?_eq_some_iff.mpr normal, _,
      dropUnderscores?_eq_some_iff.mpr ⟨between, rfl⟩, ?_⟩
    rw [plain_eq, splitSign_append signs writes.unsigned]
    exact writes

end Preferences.Numeral

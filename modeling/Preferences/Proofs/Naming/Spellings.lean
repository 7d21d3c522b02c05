import Mathlib.Data.List.TakeWhile
import Preferences.Members.Accessors
import Preferences.Proofs.Naming.Boundaries
import Preferences.Proofs.Naming.LowerCase

/-! # The usual spellings of a name

A name of several words is spelled in many ways: with capitals where words begin, with dashes, dots,
blanks or an underscore between them, and any of these around the whole (`IsSpelling`).  Joining the
separators and marking the boundaries leaves one underscore between any two words, whichever gap was
there (`markPositions_gap`); so all spellings have the same words in snake case
(`snakeCase_of_isSpelling`), and the same names are derived from them. -/

namespace Preferences.Naming

open Preferences.Text

/-! ### Words and their spellings -/

/-- A small letter, or a digit from 0 to 9. -/
def isPlain (c : Char) : Bool := isSmall c || '0' ≤ c && c ≤ '9'

/-- A word of at least two characters: a small letter, then small letters and digits. -/
structure Word where
  first : Char
  rest : List Char
  small : isSmall first = true
  long : rest ≠ []
  plain : ∀ c ∈ rest, isPlain c = true

namespace Word

def letters (w : Word) : List Char := w.first :: w.rest

/-- The word as it is, or with its first letter in upper case. -/
def written (w : Word) (capitalised : Bool) : List Char :=
  (if capitalised then w.first.toUpper else w.first) :: w.rest

end Word

/-- What may stand in front of a word that is capitalised or not. -/
inductive Gap (capitalised : Bool) : List Char → Prop
  /-- Separators, at least one. -/
  | separators {run : List Char} (ne : run ≠ []) (all : ∀ c ∈ run, isSeparator c = true) :
      Gap capitalised run
  /-- One underscore. -/
  | underscore : Gap capitalised ['_']
  /-- Nothing, provided the word is capitalised. -/
  | nothing (capital : capitalised = true) : Gap capitalised []

/-- The text has the words one after the other, each as it is or capitalised, with gaps between
them; the first word is capitalised or not. -/
inductive Spells : List Word → Bool → List Char → Prop
  | last (w : Word) (capitalised : Bool) : Spells [w] capitalised (w.written capitalised)
  | next (w : Word) (capitalised : Bool) {words : List Word} {following : Bool}
      {gap text : List Char} (between : Gap following gap) (later : Spells words following text) :
      Spells (w :: words) capitalised (w.written capitalised ++ gap ++ text)

/-- A character that may stand around a name: a separator or an underscore. -/
def isAround (c : Char) : Bool := isSeparator c || c == '_'

/-- The text spells the words, with separators and underscores around the whole. -/
inductive IsSpelling (words : List Word) : List Char → Prop
  | around {front core back : List Char} {capitalised : Bool}
      (before : ∀ c ∈ front, isAround c = true) (spells : Spells words capitalised core)
      (after : ∀ c ∈ back, isAround c = true) : IsSpelling words (front ++ core ++ back)

def joinWords (words : List Word) : List Char := ['_'].intercalate (words.map Word.letters)

variable {c : Char} {s text front back gap : List Char} {w : Word} {words : List Word}
  {capitalised following : Bool}

/-! ### Characters -/

theorem toNat_of_isPlain (plain : isPlain c = true) : 0 ≤ c.toNat ∧ c.toNat ≤ 122 := by
  refine ⟨Nat.zero_le _, ?_⟩
  rcases (Bool.or_eq_true _ _).mp plain with small | digit
  · exact (isSmall_iff.mp small).2
  · have range : 48 ≤ c.toNat ∧ c.toNat ≤ 57 := by
      simpa [Char.le_def, UInt32.le_iff_toNat_le] using digit
    omega

theorem classes_of_isPlain (plain : isPlain c = true) :
    isCapital c = false ∧ endsWord c = true ∧ isAround c = false :=
  of_codes (P := fun c => isPlain c = true →
      isCapital c = false ∧ endsWord c = true ∧ isAround c = false)
    (by decide) (toNat_of_isPlain plain) plain

theorem toUpper_of_isSmall (small : isSmall c = true) :
    isCapital c.toUpper = true ∧ c.toUpper.toLower = c :=
  of_codes (P := fun c => isCapital c.toUpper = true ∧ c.toUpper.toLower = c)
    (by decide) (isSmall_iff.mp small)

theorem not_isAround_of_isCapital (capital : isCapital c = true) : isAround c = false :=
  of_codes (P := fun c => isAround c = false) (by decide) (isCapital_iff.mp capital)

theorem not_isSeparator_of_not_isAround (h : isAround c = false) : isSeparator c = false :=
  ((Bool.or_eq_false_iff).mp h).1

/-! ### Words -/

namespace Word

theorem written_false (w : Word) : w.written false = w.letters := rfl

theorem exists_written (w : Word) (capitalised : Bool) : ∃ c, w.written capitalised = c :: w.rest ∧
    isCapital c = capitalised ∧ isAround c = false ∧ c.toLower = w.first ∧ c.toNat < 128 := by
  refine ⟨_, rfl, ?_⟩
  cases capitalised with
  | true =>
      obtain ⟨capital, back⟩ := toUpper_of_isSmall w.small
      have range := isCapital_iff.mp capital
      exact ⟨capital, not_isAround_of_isCapital capital, back, by simp; omega⟩
  | false =>
      have plain : isPlain w.first = true := by rw [isPlain, w.small, Bool.true_or]
      have range := toNat_of_isPlain plain
      obtain ⟨other, -, within⟩ := classes_of_isPlain plain
      exact ⟨other, within, toLower_of_not_isCapital other, by simp; omega⟩

theorem mem_written (w : Word) (capitalised : Bool) :
    ∀ c ∈ w.written capitalised, isSeparator c = false ∧ c.toNat < 128 := by
  obtain ⟨first, written, -, within, -, low⟩ := w.exists_written capitalised
  rw [written]
  refine List.forall_mem_cons.mpr ⟨⟨not_isSeparator_of_not_isAround within, low⟩, ?_⟩
  intro c member
  have plain := w.plain c member
  have range := toNat_of_isPlain plain
  exact ⟨not_isSeparator_of_not_isAround (classes_of_isPlain plain).2.2, by omega⟩

theorem map_toLower_written (w : Word) (capitalised : Bool) :
    (w.written capitalised).map Char.toLower = w.letters := by
  obtain ⟨first, written, -, -, lowered, -⟩ := w.exists_written capitalised
  have rest : w.rest.map Char.toLower = w.rest :=
    List.map_congr_left (fun c member =>
      toLower_of_not_isCapital (classes_of_isPlain (w.plain c member)).1) |>.trans (List.map_id _)
  rw [written, List.map_cons, lowered, rest, letters]

end Word

theorem joinRuns_written (w : Word) (capitalised : Bool) (tail : List Char) :
    joinRuns (w.written capitalised ++ tail) = w.written capitalised ++ joinRuns tail :=
  joinRuns_word (fun c member => (w.mem_written capitalised c member).1) tail

/-- The end of a word, and with it a boundary where a capital comes next. -/
theorem markPositions_plain (ne : s ≠ []) (plain : ∀ c ∈ s, isPlain c = true) (tail : List Char) :
    markPositions (s ++ tail) =
      s ++ (if tail.head?.any isCapital then ['_'] else []) ++ markPositions tail := by
  induction s with
  | nil => exact absurd rfl ne
  | cons c rest ih =>
      obtain ⟨first, later⟩ := List.forall_mem_cons.mp plain
      cases rest with
      | cons a others =>
          have next : isCapital a = false := (classes_of_isPlain (later a List.mem_cons_self)).1
          rw [List.cons_append, markPositions_cons_of_next (by simpa using next),
            ih (List.cons_ne_nil _ _) later]
          rfl
      | nil =>
          cases tail with
          | nil => exact markPositions_cons_of_next nofun
          | cons b others =>
              cases capital : isCapital b with
              | true =>
                  rw [List.singleton_append, markPositions_cons_of_endsWord
                    (classes_of_isPlain first).2.1 capital]
                  simp [capital]
              | false =>
                  rw [List.singleton_append, markPositions_cons_of_next (by simpa using capital)]
                  simp [capital]

/-- A word is marked at its end only, where a capital comes next. -/
theorem markPositions_written (w : Word) (capitalised : Bool) (tail : List Char) :
    markPositions (w.written capitalised ++ tail) = w.written capitalised ++
      (if tail.head?.any isCapital then ['_'] else []) ++ markPositions tail := by
  obtain ⟨first, written, -⟩ := w.exists_written capitalised
  have next : ∀ a ∈ (w.rest ++ tail).head?, isCapital a = false := by
    cases split : w.rest with
    | nil => exact absurd split w.long
    | cons a others =>
        have plain := w.plain a (split ▸ List.mem_cons_self)
        simpa using (classes_of_isPlain plain).1
  rw [written, List.cons_append, markPositions_cons_of_next next,
    markPositions_plain w.long w.plain tail]
  rfl

/-! ### Spellings -/

theorem Spells.head? (spells : Spells words capitalised text) :
    ∃ c rest, text = c :: rest ∧ isCapital c = capitalised ∧ isAround c = false := by
  cases spells with
  | last w =>
      obtain ⟨first, written, capital, within, -⟩ := w.exists_written capitalised
      exact ⟨first, w.rest, written, capital, within⟩
  | next w _ between later =>
      obtain ⟨first, written, capital, within, -⟩ := w.exists_written capitalised
      exact ⟨first, _, by rw [written, List.append_assoc, List.cons_append], capital, within⟩

theorem Spells.getLast? (spells : Spells words capitalised text) :
    ∀ c ∈ text.getLast?, isPlain c = true := by
  induction spells with
  | last w capitalised =>
      intro c last
      obtain ⟨first, written, -⟩ := w.exists_written capitalised
      rw [written, List.getLast?_cons_of_ne_nil w.long] at last
      exact w.plain c (List.mem_of_mem_getLast? last)
  | next w capitalised between later ih =>
      obtain ⟨first, rest, rfl, -⟩ := later.head?
      rwa [List.getLast?_append_cons]

/-- The characters of a spelling that do not separate words are among the first 128. -/
theorem Spells.toNat_lt (spells : Spells words capitalised text) :
    ∀ c ∈ text, isSeparator c = false → c.toNat < 128 := by
  induction spells with
  | last w capitalised => exact fun c member _ => (w.mem_written capitalised c member).2
  | next w capitalised between later ih =>
      intro c member together
      rcases List.mem_append.mp member with before | after
      · rcases List.mem_append.mp before with word | gap
        · exact (w.mem_written capitalised c word).2
        · cases between with
          | separators ne all => exact absurd (all c gap) (by simp [together])
          | underscore =>
              rw [List.mem_singleton.mp gap]
              decide
          | nothing capital => cases gap
      · exact ih c after together

/-- Whichever gap is between a word and the next one, one underscore is left of it. -/
theorem markPositions_gap (w : Word) (capitalised : Bool) (between : Gap following gap)
    (later : Spells words following text) (back : List Char) :
    markPositions (joinRuns (w.written capitalised ++ gap ++ text ++ back)) =
      w.written capitalised ++ '_' :: markPositions (joinRuns (text ++ back)) := by
  obtain ⟨first, rest, rfl, capital, within⟩ := later.head?
  have together := not_isSeparator_of_not_isAround within
  rw [List.append_assoc, List.append_assoc, joinRuns_written]
  have underscored (tail : List Char) : markPositions (w.written capitalised ++ '_' :: tail) =
      w.written capitalised ++ '_' :: markPositions tail := by
    simp [markPositions_written, markPositions_underscore, not_isCapital_underscore]
  cases between with
  | separators ne all =>
      rw [joinRuns_run ne all (by simpa using together), underscored]
  | underscore =>
      rw [List.singleton_append, joinRuns_other not_isSeparator_underscore, underscored]
  | nothing next =>
      subst next
      rw [List.nil_append, List.cons_append, joinRuns_other together, markPositions_written]
      simp [capital]

/-! ### What is around a spelling -/

/-- Underscores are left of what is around a spelling. -/
theorem eq_underscore_of_mem_joinRuns (around : ∀ a ∈ s, isAround a = true) :
    ∀ a ∈ joinRuns s, a = '_' := by
  intro a member
  rcases mem_or_eq_of_mem_joinRuns member with there | mark
  · have together := not_isSeparator_of_mem_joinRuns a member
    simpa [isAround, together] using around a there
  · exact mark

theorem markPositions_underscores (all : ∀ a ∈ s, a = '_') (tail : List Char) :
    markPositions (s ++ tail) = s ++ markPositions tail := by
  induction s with
  | nil => rfl
  | cons c rest ih =>
      obtain ⟨rfl, later⟩ := List.forall_mem_cons.mp all
      rw [List.cons_append, markPositions_underscore, ih later, List.cons_append]

theorem map_toLower_underscores (all : ∀ a ∈ s, a = '_') : s.map Char.toLower = s := by
  refine (List.map_congr_left fun a member => ?_).trans (List.map_id s)
  rw [all a member]
  decide

theorem joinWords_cons (w : Word) (ne : words ≠ []) :
    joinWords (w :: words) = w.letters ++ '_' :: joinWords words := by
  cases words with
  | nil => exact absurd rfl ne
  | cons v others =>
      rw [joinWords, List.map_cons, List.map_cons, List.intercalate_cons_cons]
      simp [joinWords]

theorem Spells.ne_nil (spells : Spells words capitalised text) : words ≠ [] := by
  cases spells <;> exact List.cons_ne_nil _ _

/-- The words joined by underscores are a spelling. -/
theorem spells_joinWords (ne : words ≠ []) : Spells words false (joinWords words) := by
  induction words with
  | nil => exact absurd rfl ne
  | cons w others ih =>
      cases others with
      | nil => simpa [joinWords, w.written_false] using Spells.last w false
      | cons v more =>
          have later : Spells (v :: more) false (joinWords (v :: more)) :=
            ih (List.cons_ne_nil v more)
          have joined := Spells.next w false Gap.underscore later
          rwa [w.written_false, List.append_assoc, List.singleton_append,
            ← joinWords_cons w (List.cons_ne_nil v more)] at joined

/-- The passes give the words joined by underscores, and leave underscores behind them. -/
theorem markPositions_spells (spells : Spells words capitalised text)
    (after : ∀ a ∈ back, isAround a = true) :
    (markPositions (joinRuns (text ++ back))).map Char.toLower =
      joinWords words ++ joinRuns back := by
  induction spells with
  | last w capitalised =>
      have underscores := eq_underscore_of_mem_joinRuns after
      have unmarked : markPositions (joinRuns back) = joinRuns back :=
        markPositions_eq_self fun a member => underscores a member ▸ not_isCapital_underscore
      have next : (joinRuns back).head?.any isCapital = false := by
        cases split : joinRuns back with
        | nil => rfl
        | cons a rest =>
            have mark := underscores a (split ▸ List.mem_cons_self)
            exact mark ▸ not_isCapital_underscore
      rw [joinRuns_written, markPositions_written, next, unmarked, if_neg Bool.false_ne_true,
        List.append_nil, List.map_append, w.map_toLower_written,
        map_toLower_underscores underscores]
      simp [joinWords]
  | next w capitalised between later ih =>
      rw [markPositions_gap w capitalised between later back, List.map_append, List.map_cons,
        w.map_toLower_written, ih, joinWords_cons w later.ne_nil, List.append_assoc,
        List.cons_append]
      rfl

theorem Spells.toNat_lt_of_mem_markPositions (spells : Spells words capitalised text)
    (before : ∀ a ∈ front, isAround a = true) (after : ∀ a ∈ back, isAround a = true)
    (h : c ∈ markPositions (joinRuns (front ++ text ++ back))) : c.toNat < 128 := by
  rcases mem_or_eq_of_mem_markPositions h with joined | rfl
  · have together := not_isSeparator_of_mem_joinRuns c joined
    have underscore (around : isAround c = true) : c.toNat < 128 := by
      obtain rfl : c = '_' := by simpa [isAround, together] using around
      decide
    rcases mem_or_eq_of_mem_joinRuns joined with there | rfl
    · rcases List.mem_append.mp there with there | there
      · rcases List.mem_append.mp there with there | there
        · exact underscore (before c there)
        · exact spells.toNat_lt c there together
      · exact underscore (after c there)
    · decide
  · decide

/-- Lowered, a spelling has its words joined by underscores, between underscores. -/
theorem Spells.lower_eq (spells : Spells words capitalised text)
    (before : ∀ a ∈ front, isAround a = true) (after : ∀ a ∈ back, isAround a = true) :
    lower (markPositions (joinRuns (front ++ text ++ back))) =
      joinRuns front ++ joinWords words ++ joinRuns back := by
  have underscores := eq_underscore_of_mem_joinRuns before
  have starts : ∀ b ∈ (text ++ back).head?, isSeparator b = false := by
    obtain ⟨first, rest, rfl, -, within⟩ := spells.head?
    simpa using not_isSeparator_of_not_isAround within
  rw [lower_eq_map fun c member => spells.toNat_lt_of_mem_markPositions before after member,
    List.append_assoc, joinRuns_append starts, markPositions_underscores underscores,
    List.map_append, map_toLower_underscores underscores, markPositions_spells spells after,
    List.append_assoc]

/-- What is around a spelling is trimmed from the outside. -/
theorem Spells.trimBy_eq {class? : Char → Bool} (spells : Spells words capitalised text)
    (within : ∀ c, class? c = true → isAround c = true) :
    trimBy class? (front ++ text ++ back) =
      front.dropWhile class? ++ text ++ (back.reverse.dropWhile class?).reverse := by
  have outside {c : Char} (h : isAround c = false) : class? c = false :=
    Bool.eq_false_iff.mpr fun inside => Bool.eq_false_iff.mp h (within c inside)
  obtain ⟨first, rest, rfl, -, start⟩ := spells.head?
  refine trimBy_append (List.cons_ne_nil _ _) (fun c h => ?_) fun c h => ?_
  · exact outside (Option.some_inj.mp h ▸ start)
  · exact outside (classes_of_isPlain (spells.getLast? c h)).2.2

/-- A spelling is its words joined by underscores, in snake case. -/
theorem snakeCase_of_isSpelling (spelling : IsSpelling words text) :
    snakeCase text = joinWords words := by
  obtain @⟨front, core, back, capitalised, before, spells, after⟩ := spelling
  have trimmed : trim (front ++ core ++ back) =
      front.dropWhile isBlank ++ core ++ (back.reverse.dropWhile isBlank).reverse :=
    spells.trimBy_eq fun c blank => by simp [isAround, isSeparator, blank]
  have before' : ∀ c ∈ front.dropWhile isBlank, isAround c = true := fun c member =>
    before c ((List.dropWhile_suffix isBlank).subset member)
  have after' : ∀ c ∈ (back.reverse.dropWhile isBlank).reverse, isAround c = true := fun c member =>
    after c (by simpa using (List.dropWhile_suffix isBlank).subset (List.mem_reverse.mp member))
  have start : (joinRuns (front.dropWhile isBlank)).dropWhile (· == '_') = [] :=
    List.dropWhile_eq_nil_iff.mpr fun c member =>
      beq_iff_eq.mpr (eq_underscore_of_mem_joinRuns before' c member)
  have stop :
      (joinRuns (back.reverse.dropWhile isBlank).reverse).reverse.dropWhile (· == '_') = [] :=
    List.dropWhile_eq_nil_iff.mpr fun c member =>
      beq_iff_eq.mpr (eq_underscore_of_mem_joinRuns after' c (List.mem_reverse.mp member))
  rw [snakeCase, joinSeparators_eq, markBoundaries_eq, trimmed, spells.lower_eq before' after',
    (spells_joinWords spells.ne_nil).trimBy_eq fun c mark => by rw [isAround, mark, Bool.or_true],
    start, stop, List.nil_append, List.reverse_nil, List.append_nil]

/-- **All usual spellings of a name give one name.**  Each is its words joined by underscores in
snake case; so any two spellings of the same words give the same suffixes of methods, the same
variables and the same parameters. -/
theorem spellings_agree (spelling : IsSpelling words text) : snakeCase text = joinWords words ∧
    ∀ other, IsSpelling words other →
      Style.snake.methodSuffix text = Style.snake.methodSuffix other ∧
      Style.snake.variableName text = Style.snake.variableName other ∧
      ∀ p : Preference,
        Members.parameterName .snake { p with name := .text (String.ofList text) } =
          Members.parameterName .snake { p with name := .text (String.ofList other) } := by
  refine ⟨snakeCase_of_isSpelling spelling, fun other spelled => ?_⟩
  have same : snakeCase text = snakeCase other :=
    (snakeCase_of_isSpelling spelling).trans (snakeCase_of_isSpelling spelled).symm
  have suffix : Style.snake.methodSuffix text = Style.snake.methodSuffix other := by
    rw [Style.methodSuffix, Style.methodSuffix, same]
  have named : Style.snake.variableName text = Style.snake.variableName other := by
    rw [Style.variableName, Style.variableName, same]
  refine ⟨suffix, named, fun p => ?_⟩
  simp only [Members.parameterName, Style.variableOf, String.toList_ofList, named]

/-- The words of a name. -/
def homePageNo2 : List Word := [
  ⟨'h', ['o', 'm', 'e'], rfl, List.cons_ne_nil _ _, List.all_eq_true.mp rfl⟩,
  ⟨'p', ['a', 'g', 'e'], rfl, List.cons_ne_nil _ _, List.all_eq_true.mp rfl⟩,
  ⟨'n', ['o', '2'], rfl, List.cons_ne_nil _ _, List.all_eq_true.mp rfl⟩]

/-- A name in camel case and a mixed spelling of it. -/
theorem spellings_homePageNo2 : IsSpelling homePageNo2 "homePageNo2".toList ∧
    IsSpelling homePageNo2 "_-Home -.page_No2. ".toList ∧
    snakeCase "homePageNo2".toList = "home_page_no2".toList ∧
    Style.snake.methodSuffix "homePageNo2".toList =
      Style.snake.methodSuffix "_-Home -.page_No2. ".toList := by
  have camel : IsSpelling homePageNo2 "homePageNo2".toList :=
    @IsSpelling.around homePageNo2 [] _ [] false nofun
      (.next _ false (.nothing rfl) (.next _ true (.nothing rfl) (.last _ true))) nofun
  have blanks : Gap false [' ', '-', '.'] :=
    .separators (List.cons_ne_nil _ _) (List.all_eq_true.mp rfl)
  have mixed : IsSpelling homePageNo2 "_-Home -.page_No2. ".toList :=
    @IsSpelling.around homePageNo2 ['_', '-'] _ ['.', ' '] true (List.all_eq_true.mp rfl)
      (.next _ true blanks (.next _ false .underscore (.last _ true))) (List.all_eq_true.mp rfl)
  obtain ⟨snake, others⟩ := spellings_agree camel
  exact ⟨camel, mixed, snake, (others _ mixed).1⟩

end Preferences.Naming

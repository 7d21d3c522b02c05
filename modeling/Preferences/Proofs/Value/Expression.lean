import Preferences.Proofs.Number.Numerals
import Preferences.Proofs.Store.TextKeyed
import Preferences.Proofs.Text.Literals
import Preferences.Proofs.Value.SameKeys
import Preferences.Text.Identifier
import Preferences.Toml.Lexical
import Preferences.Value.Text

/-! # Values as expressions

`evaluate?` evaluates the expressions that are built from literals only: numbers with a sign, quoted
texts, the words for truth values and for nothing, and lists and tables of such expressions.  A name
is none of them.  A value of a document is written as such an expression exactly if no date, no time
and no infinity is in it, nor what is no number (`isLiteral`), and then the expression has the value
(`evaluate?_plain`).

Of the limits that an interpreter of such expressions has, only the one on the digits of an integer
is kept.  That it refuses more than 200 brackets in one another is left out. -/

namespace Preferences.Expression

open Text (readLiteral? continuesIdentifier)
open Toml (skipSpaces readMark?)

/-! ### The reader -/

/-- The value of a word, unless it is a name. -/
def wordValue? (word : List Char) : Option Value :=
  if word = "True".toList then some (.bool true)
  else if word = "False".toList then some (.bool false)
  else if word = "None".toList then some .null
  else none

/-- Reads a word that is no name. -/
def readWord? (s : List Char) : Option (Value × List Char) :=
  (wordValue? (s.takeWhile continuesIdentifier)).map (·, s.dropWhile continuesIdentifier)

def readNumber? (s : List Char) : Option (Value × List Char) :=
  match Toml.readDecimal? s with
  | some (.ok v, rest) => some (v, rest)
  | _ => none

def readText? (s : List Char) : Option (Value × List Char) :=
  (readLiteral? s).map fun (t, rest) => (.text (String.ofList t), rest)

/-- Reads an expression without parts. -/
def readAtom? (s : List Char) : Option (Value × List Char) :=
  readText? s <|> readNumber? s <|> readWord? s

mutual

/-- Reads an expression.  At every second step a character is taken at least. -/
def readWithin? : (bound : Nat) → List Char → Option (Value × List Char)
  | 0, _ => none
  | bound + 1, '[' :: rest => do
    let (items, rest) ← readItemsWithin? bound (skipSpaces rest)
    return (.list items, rest)
  | bound + 1, '\x7b' :: rest => do
    let (entries, rest) ← readEntriesWithin? bound [] (skipSpaces rest)
    return (.table entries, rest)
  | _ + 1, s => readAtom? s

/-- Reads the items of a list up to its end. -/
def readItemsWithin? : (bound : Nat) → List Char → Option (List Value × List Char)
  | 0, _ => none
  | _ + 1, ']' :: rest => some ([], rest)
  | bound + 1, s => do
    let (item, s) ← readWithin? bound s
    match skipSpaces s with
    | ']' :: rest => return ([item], rest)
    | ',' :: rest =>
      (readItemsWithin? bound (skipSpaces rest)).map fun (items, rest) => (item :: items, rest)
    | _ => none

/-- Reads the entries of a table up to its end, to those that are known. -/
def readEntriesWithin? : (bound : Nat) → (known : Table) → List Char → Option (Table × List Char)
  | 0, _, _ => none
  | _ + 1, known, '\x7d' :: rest => some (known, rest)
  | bound + 1, known, s => do
    let (key, s) ← readWithin? bound s
    if !key.isKey then none
    let (v, s) ← readWithin? bound (skipSpaces (← readMark? ':' (skipSpaces s)))
    match skipSpaces s with
    | '\x7d' :: rest => return (known.put key v, rest)
    | ',' :: rest => readEntriesWithin? bound (known.put key v) (skipSpaces rest)
    | _ => none

end

/-- The value of an expression that is built from literals only, however deep its brackets are. -/
def evaluate? (s : List Char) : Option Value :=
  match readWithin? (2 * s.length + 1) s with
  | some (v, []) => some v
  | _ => none

end Preferences.Expression

namespace Preferences.Value

mutual

/-- Whether the value is one of a document: its tables have texts as keys, and no key twice. -/
def IsData : Value → Prop
  | .list items => AreData items
  | .table entries => Table.TextKeyed entries ∧ EntriesAreData entries
  | .set _ | .frozenset _ => False
  | .null | .bool _ | .int _ | .float _ | .text _ | .date _ | .time _ | .datetime _ => True

def AreData : List Value → Prop
  | [] => True
  | v :: rest => v.IsData ∧ AreData rest

def EntriesAreData : List (Value × Value) → Prop
  | [] => True
  | (_, v) :: rest => v.IsData ∧ EntriesAreData rest

end

mutual

/-- Whether the value is written with literals only: there is a literal for it and all its parts. -/
def isLiteral : Value → Bool
  | .null | .bool _ | .int _ | .text _ => true
  | .float x => x.word.val < Binary64.infiniteWord
  | .list items => areLiteral items
  | .table entries => areLiteralEntries entries
  | .set _ | .frozenset _ | .date _ | .time _ | .datetime _ => false

def areLiteral : List Value → Bool
  | [] => true
  | v :: rest => v.isLiteral && areLiteral rest

def areLiteralEntries : List (Value × Value) → Bool
  | [] => true
  | (key, v) :: rest => key.isLiteral && v.isLiteral && areLiteralEntries rest

end

/-! ### What values are written as -/

section written
variable (items : List Value) (entries : List (Value × Value)) (key v : Value)

theorem source_int (n : Int) : (int n).source = toString n := rfl

theorem source_float (x : Binary64) : (float x).source = String.ofList x.text := rfl

theorem source_text (s : String) : (text s).source = String.ofList (Text.quote s.toList) := rfl

theorem source_list : (list items).source = "[" ++ commaJoined (sources items) ++ "]" := rfl

theorem source_table :
    (table entries).source = "\x7b" ++ commaJoined (entrySources entries) ++ "\x7d" := rfl

theorem source_date (d : Date) :
    (date d).source = "datetime.date(" ++ commaJoined d.fields ++ ")" := rfl

theorem source_time (t : TimeOfDay) :
    (time t).source = "datetime.time(" ++ commaJoined t.fields ++ ")" := rfl

theorem source_datetime (t : DateTime) :
    (datetime t).source = "datetime.datetime(" ++ commaJoined t.fields ++ ")" := rfl

theorem sources_cons : sources (v :: items) = v.source :: sources items := rfl

theorem entrySources_cons :
    entrySources ((key, v) :: entries) = (key.source ++ ": " ++ v.source) :: entrySources entries :=
  rfl

theorem isLiteral_float (x : Binary64) :
    (float x).isLiteral = decide (x.word.val < Binary64.infiniteWord) := rfl

end written

end Preferences.Value

namespace Preferences.Expression

open Text (quote marks readLiteral? continuesIdentifier)
open Toml (skipSpaces readMark? EndsNumber)
open Numeral (isAsciiDigit)

variable {s rest word : List Char} {c : Char} {v : Value} {bound : Nat}

/-! ### Ends and beginnings -/

/-- What may follow an expression. -/
def delimiters : List Char := [',', ':', ']', '\x7d', ')']

/-- The expression ends where the rest begins. -/
def Ends (rest : List Char) : Prop := ∀ c ∈ rest.head?, c ∈ delimiters

theorem delimiters_apart : ∀ c ∈ delimiters, isAsciiDigit c = false ∧ c ∉ ['_', '.', 'e', 'E'] ∧
    c ∉ marks :=
  List.all_iff_forall_prop.mp (by decide)

theorem not_continuesIdentifier :
    ∀ c ∈ '-' :: '.' :: delimiters, continuesIdentifier c = false := by
  have all : ('-' :: '.' :: delimiters).all (!continuesIdentifier ·) = true := by decide +kernel
  simpa only [List.all_eq_true, Bool.not_eq_true'] using all

theorem Ends.endsNumber (h : Ends rest) : EndsNumber rest := fun c hc =>
  ⟨(delimiters_apart c (h c hc)).1, (delimiters_apart c (h c hc)).2.1⟩

theorem Ends.head?_ne (h : Ends rest) (mark : Char) (known : mark ∈ marks) :
    rest.head? ≠ some mark := fun same => (delimiters_apart mark (h mark same)).2.2 known

theorem ends_cons (known : c ∈ delimiters) : Ends (c :: rest) := by
  rintro d ⟨rfl⟩
  exact known

/-- What an expression may begin with: anything but spaces and closing marks. -/
def Begins (s : List Char) : Prop := ∃ c t, s = c :: t ∧ c ∉ [' ', '\t', ']', '\x7d']

theorem Begins.skipSpaces (h : Begins s) : skipSpaces s = s := by
  obtain ⟨c, t, rfl, other⟩ := h
  have visible : Toml.isSpace c = false := by
    simp only [List.mem_cons, not_or] at other
    simp [Toml.isSpace, other]
  simp [Toml.skipSpaces, visible]

/-! ### Atoms -/

theorem readWithin?_atom (other : c ∉ ['[', '\x7b']) :
    readWithin? (bound + 1) (c :: s) = readAtom? (c :: s) := by
  simp only [List.mem_cons, List.not_mem_nil, or_false, not_or] at other
  rw [readWithin?]
  · rintro rest ⟨rfl, -⟩
    exact other.1 rfl
  · rintro rest ⟨rfl, -⟩
    exact other.2 rfl

theorem readText?_none (other : c ∉ marks) : readText? (c :: s) = none := by
  have unmarked : c ≠ '"' ∧ c ≠ '\'' := by simpa [marks] using other
  rw [readText?, readLiteral?, if_pos unmarked]
  rfl

theorem head_of_readDecimal? {r : Except Toml.Fault Value × List Char}
    (read : Toml.readDecimal? (c :: s) = some r) : isAsciiDigit c = true ∨ c ∈ ['-', '+'] := by
  by_contra other
  rw [not_or, Bool.not_eq_true] at other
  obtain ⟨digit, unsigned⟩ := other
  simp only [List.mem_cons, List.not_mem_nil, or_false, not_or] at unsigned
  have sign : Numeral.splitSign (c :: s) = (false, c :: s) := by
    unfold Numeral.splitSign
    split
    · next same => exact absurd (List.cons.inj same).1 unsigned.1
    · next same => exact absurd (List.cons.inj same).1 unsigned.2
    · rfl
  have none : Toml.readWhole? (c :: s) = none := by
    unfold Toml.readWhole?
    split
    · next same =>
        obtain ⟨rfl, -⟩ := List.cons.inj same
        cases digit
    · simp [Toml.readDigits?, digit]
  simp [Toml.readDecimal?, sign, none] at read

theorem readAtom?_number (read : Toml.readDecimal? s = some (.ok v, rest)) :
    readAtom? s = some (v, rest) := by
  cases s with
  | nil => cases read
  | cons c s =>
      have unmarked : c ∉ marks := by
        intro known
        rcases head_of_readDecimal? read with digit | sign
        · have apart : ∀ mark ∈ marks, isAsciiDigit mark = false :=
            List.all_iff_forall_prop.mp (by decide)
          rw [apart c known] at digit
          cases digit
        · have apart : ∀ mark ∈ marks, mark ∉ ['-', '+'] :=
            List.all_iff_forall_prop.mp (by decide)
          exact apart c known sign
      rw [readAtom?, readText?_none unmarked, readNumber?, read]
      rfl

theorem quote_eq_enclose (s : List Char) : ∃ mark ∈ marks, quote s = Text.enclose mark s := by
  unfold quote
  split_ifs
  · exact ⟨'"', by decide, rfl⟩
  · exact ⟨'\'', by decide, rfl⟩

theorem readAtom?_quote (s : List Char) (ends : Ends rest) :
    readAtom? (quote s ++ rest) = some (.text (String.ofList s), rest) := by
  obtain ⟨mark, known, same⟩ := quote_eq_enclose s
  rw [readAtom?, readText?, same,
    Text.readLiteral?_enclose known s rest fun _ => ends.head?_ne mark known]
  rfl

/-- What is no text and no number can only be a word. -/
theorem readAtom?_eq_readWord? (unmarked : c ∉ marks)
    (none : Toml.readDecimal? (c :: s) = none) : readAtom? (c :: s) = readWord? (c :: s) := by
  rw [readAtom?, readText?_none unmarked, readNumber?, none]
  rfl

theorem readAtom?_word (first : isAsciiDigit c = false ∧ c ∉ ['-', '+'] ∧ c ∉ marks)
    (all : ∀ d ∈ c :: word, continuesIdentifier d = true)
    (ends : ∀ d ∈ rest.head?, continuesIdentifier d = false) :
    readAtom? (c :: word ++ rest) = (wordValue? (c :: word)).map (·, rest) := by
  have none : Toml.readDecimal? (c :: word ++ rest) = none := by
    rw [← Option.not_isSome_iff_eq_none, Option.isSome_iff_exists]
    rintro ⟨r, read⟩
    rcases head_of_readDecimal? read with digit | sign
    · rw [first.1] at digit
      cases digit
    · exact first.2.1 sign
  have taken : (c :: word ++ rest).takeWhile continuesIdentifier = c :: word := by
    rw [List.takeWhile_append_of_pos all]
    cases rest with
    | nil => simp
    | cons d rest => simp [ends d rfl]
  have left : (c :: word ++ rest).dropWhile continuesIdentifier = rest := by
    rw [List.dropWhile_append_of_pos all]
    cases rest with
    | nil => rfl
    | cons d rest => simp [ends d rfl]
  rw [List.cons_append] at none taken left ⊢
  rw [readAtom?_eq_readWord? first.2.2 none, readWord?, taken, left]

theorem Ends.endsWord (h : Ends rest) : ∀ d ∈ rest.head?, continuesIdentifier d = false :=
  fun d hd => not_continuesIdentifier d (List.mem_cons_of_mem _ (List.mem_cons_of_mem _ (h d hd)))

/-- The letters of the words that values are written with. -/
theorem continuesIdentifier_of_mem_words : ∀ word ∈ ["None", "True", "False", "inf", "nan",
    "datetime"], ∀ c ∈ word.toList, continuesIdentifier c = true := by
  have all : ["None", "True", "False", "inf", "nan", "datetime"].all
      (·.toList.all continuesIdentifier) = true := by decide
  simpa only [List.all_eq_true] using all

/-- A number that is not finite is written as a word, perhaps with a sign. -/
theorem text_of_infinite {x : Binary64} (infinite : ¬x.word.val < Binary64.infiniteWord) :
    x.text ∈ ["nan".toList, '-' :: "inf".toList, "inf".toList] := by
  unfold Binary64.text
  by_cases number : x.isNaN = true
  · rw [if_pos number]
    exact List.mem_cons_self
  · have bounded : x.isInfinite = true := by
      simp only [Binary64.isNaN, decide_eq_true_eq] at number
      simp only [Binary64.isInfinite, beq_iff_eq]
      omega
    rw [if_neg number, if_pos bounded]
    split_ifs
    · exact List.mem_cons_of_mem _ List.mem_cons_self
    · exact List.mem_cons_of_mem _ (List.mem_cons_of_mem _ List.mem_cons_self)

theorem readAtom?_text_infinite {x : Binary64} (infinite : ¬x.word.val < Binary64.infiniteWord)
    (ends : Ends rest) : readAtom? (x.text ++ rest) = none := by
  have written := text_of_infinite infinite
  simp only [List.mem_cons, List.not_mem_nil, or_false] at written
  obtain nan | minus | inf := written
  · rw [nan]
    exact readAtom?_word (by decide) (continuesIdentifier_of_mem_words "nan" (by simp))
      ends.endsWord
  · have dash := not_continuesIdentifier '-' List.mem_cons_self
    rw [minus]
    show readAtom? ('-' :: 'i' :: 'n' :: 'f' :: rest) = none
    rw [readAtom?_eq_readWord? (by decide) rfl, readWord?, List.takeWhile_cons, dash]
    rfl
  · rw [inf]
    exact readAtom?_word (by decide) (continuesIdentifier_of_mem_words "inf" (by simp))
      ends.endsWord

theorem exists_datetime (h : v.isAtom = true) (dated : ¬v.isLiteral = true) :
    (∃ x, v = .float x ∧ ¬x.word.val < Binary64.infiniteWord) ∨
      ∃ t, v.source.toList = "datetime".toList ++ '.' :: t := by
  cases v with
  | list | table | set | frozenset => cases h
  | null | bool | int | text => exact absurd rfl dated
  | float x =>
      rw [Value.isLiteral_float, decide_eq_true_eq] at dated
      exact Or.inl ⟨x, rfl, dated⟩
  | date d =>
      exact Or.inr ⟨['d', 'a', 't', 'e', '('] ++ (Value.commaJoined d.fields).toList ++ [')'],
        by
          simp only [Value.source_date, String.toList_append, String.reduceToList, List.cons_append,
            List.nil_append]⟩
  | time t =>
      exact Or.inr ⟨['t', 'i', 'm', 'e', '('] ++ (Value.commaJoined t.fields).toList ++ [')'],
        by
          simp only [Value.source_time, String.toList_append, String.reduceToList, List.cons_append,
            List.nil_append]⟩
  | datetime t =>
      exact Or.inr ⟨['d', 'a', 't', 'e', 't', 'i', 'm', 'e', '('] ++
        (Value.commaJoined t.fields).toList ++ [')'],
        by
          simp only [Value.source_datetime, String.toList_append, String.reduceToList,
            List.cons_append, List.nil_append]⟩

/-- **Values without parts are read back if they are written with literals, and else not read.** -/
theorem readAtom?_source (h : v.isAtom = true) (writable : v.isWritable = true)
    (ends : Ends rest) :
    readAtom? (v.source.toList ++ rest) = if v.isLiteral then some (v, rest) else none := by
  split_ifs with literal
  · cases v with
    | list | table | set | frozenset => cases h
    | date | time | datetime => cases literal
    | null =>
        exact readAtom?_word (by decide) (continuesIdentifier_of_mem_words "None" (by simp))
          ends.endsWord
    | bool b =>
        cases b with
        | false =>
            exact readAtom?_word (by decide) (continuesIdentifier_of_mem_words "False" (by simp))
              ends.endsWord
        | true =>
            exact readAtom?_word (by decide) (continuesIdentifier_of_mem_words "True" (by simp))
              ends.endsWord
    | int n =>
        have short : Binary64.decimalLength n.natAbs ≤ Numeral.maxDigits := by
          simpa [Value.isWritable] using writable
        rw [Value.source_int]
        exact readAtom?_number (Toml.readDecimal?_int short ends.endsNumber)
    | float x =>
        rw [Value.isLiteral_float, decide_eq_true_eq] at literal
        rw [Value.source_float, String.toList_ofList]
        exact readAtom?_number (Binary64.readDecimal?_text literal ends.endsNumber)
    | text t =>
        rw [Value.source_text, String.toList_ofList, readAtom?_quote _ ends, String.ofList_toList]
  · obtain ⟨x, rfl, infinite⟩ | ⟨t, dated⟩ := exists_datetime h literal
    · rw [Value.source_float, String.toList_ofList]
      exact readAtom?_text_infinite infinite ends
    · have point := not_continuesIdentifier '.' (List.mem_cons_of_mem _ List.mem_cons_self)
      rw [dated, List.append_assoc]
      refine readAtom?_word (by decide)
        (continuesIdentifier_of_mem_words "datetime" (by simp)) ?_
      rintro d ⟨rfl⟩
      exact point

/-- The spaces, and the marks around lists and tables. -/
def brackets : List Char := [' ', '\t', ']', '\x7d', '[', '\x7b']

theorem exists_head_of_readDecimal? {r : Except Toml.Fault Value × List Char}
    (read : Toml.readDecimal? s = some r) : ∃ c t, s = c :: t ∧ c ∉ brackets := by
  cases s with
  | nil => cases read
  | cons c t =>
      refine ⟨c, t, rfl, fun bracket => ?_⟩
      have apart : ∀ c ∈ brackets, isAsciiDigit c = false ∧ c ∉ ['-', '+'] :=
        List.all_iff_forall_prop.mp (by decide)
      rcases head_of_readDecimal? read with digit | sign
      · rw [(apart c bracket).1] at digit
        cases digit
      · exact (apart c bracket).2 sign

theorem exists_head_source (h : v.isAtom = true) (writable : v.isWritable = true) :
    ∃ c t, v.source.toList = c :: t ∧ c ∉ brackets := by
  have ends : EndsNumber [] := nofun
  cases v with
  | list | table | set | frozenset => cases h
  | null => exact ⟨'N', _, rfl, by decide⟩
  | bool b => cases b <;> exact ⟨_, _, rfl, by decide⟩
  | int n =>
      have short : Binary64.decimalLength n.natAbs ≤ Numeral.maxDigits := by
        simpa [Value.isWritable] using writable
      have read := Toml.readDecimal?_int short ends
      rw [List.append_nil] at read
      exact exists_head_of_readDecimal? read
  | float x =>
      rw [Value.source_float, String.toList_ofList]
      by_cases finite : x.word.val < Binary64.infiniteWord
      · have read := Binary64.readDecimal?_text finite ends
        rw [List.append_nil] at read
        exact exists_head_of_readDecimal? read
      · have written := text_of_infinite finite
        simp only [List.mem_cons, List.not_mem_nil, or_false] at written
        obtain same | same | same := written <;> rw [same] <;> exact ⟨_, _, rfl, by decide⟩
  | text t =>
      obtain ⟨mark, known, same⟩ := quote_eq_enclose t.toList
      have apart : ∀ mark ∈ marks, mark ∉ brackets := List.all_iff_forall_prop.mp (by decide)
      rw [Value.source_text, String.toList_ofList, same]
      exact ⟨mark, _, rfl, apart mark known⟩
  | date | time | datetime =>
      obtain ⟨x, same, -⟩ | ⟨t, dated⟩ := exists_datetime h Bool.false_ne_true
      · cases same
      · exact ⟨'d', _, dated, by decide⟩

theorem source_begins (h : v.IsData) (writable : v.isWritable = true) (t : List Char) :
    Begins (v.source.toList ++ t) := by
  by_cases atom : v.isAtom = true
  · obtain ⟨c, s, same, other⟩ := exists_head_source atom writable
    refine ⟨c, s ++ t, by rw [same, List.cons_append], fun closing => other ?_⟩
    exact List.mem_append_left ['[', '\x7b'] closing
  · cases v with
    | list items =>
        refine ⟨'[', (Value.commaJoined (Value.sources items)).toList ++ (']' :: t), ?_, by decide⟩
        simp [Value.source_list]
    | table entries =>
        refine ⟨'\x7b',
          (Value.commaJoined (Value.entrySources entries)).toList ++ ('\x7d' :: t), ?_, by decide⟩
        simp [Value.source_table]
    | set | frozenset => exact h.elim
    | _ => exact absurd rfl atom

/-! ### Steps -/

section steps
variable {t : List Char} {key : Value} {known : Table}

theorem skipSpaces_of_delimiter (known : c ∈ delimiters) : skipSpaces (c :: s) = c :: s := by
  have visible : ∀ c ∈ delimiters, Toml.isSpace c = false :=
    List.all_iff_forall_prop.mp (by decide)
  simp [skipSpaces, visible c known]

theorem skipSpaces_space (h : Begins s) : skipSpaces (' ' :: s) = s := h.skipSpaces

theorem readItemsWithin?_item (h : Begins s) :
    readItemsWithin? (bound + 1) s = (readWithin? bound s).bind fun read =>
      match skipSpaces read.2 with
      | ']' :: rest => some ([read.1], rest)
      | ',' :: rest => (readItemsWithin? bound (skipSpaces rest)).map fun items =>
          (read.1 :: items.1, items.2)
      | _ => none := by
  obtain ⟨c, t, rfl, other⟩ := h
  rw [readItemsWithin?]
  · rfl
  · rintro rest ⟨rfl, -⟩
    exact other (by decide)

theorem readEntriesWithin?_key (h : Begins s) (value : Begins t) (isKey : key.isKey = true)
    (read : readWithin? bound s = some (key, ':' :: ' ' :: t)) :
    readEntriesWithin? (bound + 1) known s = (readWithin? bound t).bind fun read =>
      match skipSpaces read.2 with
      | '\x7d' :: rest => some (known.put key read.1, rest)
      | ',' :: rest => readEntriesWithin? bound (known.put key read.1) (skipSpaces rest)
      | _ => none := by
  obtain ⟨c, t', rfl, other⟩ := h
  rw [readEntriesWithin?, read]
  · simp [skipSpaces_of_delimiter (c := ':') (by decide), skipSpaces_space value, isKey, readMark?]
  · rintro rest ⟨rfl, -⟩
    exact other (by decide)

end steps

end Preferences.Expression

import Preferences.Proofs.Value.Expression

/-! # Values that are read back

A value of a document is read back from what it is written as exactly if it is written with literals
only, whatever stands within what (`readsBack`).  The reader takes an item with what follows it and
goes on, so an item that is no literal stops it (`itemsReadBack_cons`, `entriesReadBack_cons`).
Dates and times in the compact notation are digits with something behind them, of which no number
takes everything (`evaluate?_digits`). -/

namespace Preferences.Expression

open Text (marks)
open Toml (skipSpaces readMark?)
open Numeral (isAsciiDigit)

variable {s rest : List Char} {c : Char} {v : Value} {bound : Nat}

/-! ### Reading back -/

/-- The value is read from what it is written as, if it is written with literals, and otherwise
nothing is. -/
def ReadsBack (v : Value) : Prop :=
  ∀ bound rest, 2 * v.source.toList.length ≤ bound + 1 → Ends rest →
    readWithin? bound (v.source.toList ++ rest) = if v.isLiteral then some (v, rest) else none

/-- The items of a list are read from what they are written as. -/
def ItemsReadBack (items : List Value) : Prop :=
  ∀ bound rest, 2 * ((Value.commaJoined (Value.sources items)).toList.length + 1) ≤ bound →
    readItemsWithin? bound ((Value.commaJoined (Value.sources items)).toList ++ ']' :: rest) =
      if Value.areLiteral items then some (items, rest) else none

/-- The entries of a table are read from what they are written as, to those that are known. -/
def EntriesReadBack (entries : Table) : Prop :=
  ∀ known : Table, Table.TextKeyed (known ++ entries) → ∀ bound rest,
    2 * ((Value.commaJoined (Value.entrySources entries)).toList.length + 1) ≤ bound →
    readEntriesWithin? bound known
      ((Value.commaJoined (Value.entrySources entries)).toList ++ '\x7d' :: rest) =
      if Value.areLiteralEntries entries then some (known ++ entries, rest) else none

theorem toList_commaJoined_singleton (part : String) :
    (Value.commaJoined [part]).toList = part.toList := by
  rw [Value.commaJoined, String.intercalate_singleton]

theorem toList_commaJoined_cons (part next : String) (parts : List String) :
    (Value.commaJoined (part :: next :: parts)).toList =
      part.toList ++ ',' :: ' ' :: (Value.commaJoined (next :: parts)).toList := by
  rw [Value.commaJoined, String.intercalate_cons_cons, String.toList_append, String.toList_append,
    List.append_assoc]
  rfl

theorem readsBack_of_isAtom (h : v.isAtom = true) (writable : v.isWritable = true) :
    ReadsBack v := by
  intro bound rest enough ends
  obtain ⟨c, t, same, other⟩ := exists_head_source h writable
  obtain ⟨bound, rfl⟩ : ∃ less, bound = less + 1 := by
    rw [same, List.length_cons] at enough
    exact ⟨bound - 1, by omega⟩
  have simple : c ∉ ['[', '\x7b'] := fun opening =>
    other (List.mem_append_right [' ', '\t', ']', '\x7d'] opening)
  rw [← readAtom?_source h writable ends, same]
  exact readWithin?_atom simple

theorem itemsReadBack_nil : ItemsReadBack [] := by
  intro bound rest enough
  obtain ⟨bound, rfl⟩ : ∃ less, bound = less + 1 := ⟨bound - 1, by omega⟩
  rfl

theorem itemsReadBack_cons {items : List Value} (begins : ∀ t, Begins (v.source.toList ++ t))
    (first : ReadsBack v) (later : ItemsReadBack items)
    (begins' : items ≠ [] → ∀ t, Begins ((Value.commaJoined (Value.sources items)).toList ++ t)) :
    ItemsReadBack (v :: items) := by
  intro bound rest enough
  obtain ⟨bound, rfl⟩ : ∃ less, bound = less + 1 := ⟨bound - 1, by omega⟩
  have both : Value.areLiteral (v :: items) = (v.isLiteral && Value.areLiteral items) := rfl
  cases items with
  | nil =>
      have none : Value.sources [] = [] := rfl
      rw [Value.sources_cons, none, toList_commaJoined_singleton] at enough ⊢
      rw [readItemsWithin?_item (begins _), both,
        first bound (']' :: rest) (by omega) (ends_cons (by decide))]
      cases v.isLiteral <;> rfl
  | cons w items =>
      rw [Value.sources_cons, Value.sources_cons, toList_commaJoined_cons, ← Value.sources_cons]
        at enough ⊢
      rw [List.length_append, List.length_cons, List.length_cons] at enough
      rw [List.append_assoc, List.cons_append, List.cons_append, readItemsWithin?_item (begins _),
        both, first bound _ (by omega) (ends_cons (by decide))]
      cases v.isLiteral with
      | false => rfl
      | true =>
          show (readItemsWithin? bound (skipSpaces (' ' :: _))).map _ = _
          rw [skipSpaces_space (begins' (List.cons_ne_nil _ _) _), later bound rest (by omega),
            Bool.true_and]
          split_ifs <;> rfl

theorem entriesReadBack_nil : EntriesReadBack [] := by
  intro known keyed bound rest enough
  obtain ⟨bound, rfl⟩ : ∃ less, bound = less + 1 := ⟨bound - 1, by omega⟩
  rw [List.append_nil]
  rfl

section entries
variable {key : Value} {known entries : Table}

theorem put_of_textKeyed (keyed : Table.TextKeyed (known ++ (key, v) :: entries)) :
    Table.put key v known = known ++ [(key, v)] := by
  refine Table.put_of_not_holds key v known ?_
  have text : key.isText = true := keyed.texts key (by simp [Table.keys])
  have apart := keyed.nodup
  rw [Table.keys, List.map_append, List.nodup_append] at apart
  rw [Table.holds, List.any_eq_false]
  intro entry member
  rw [Value.same_eq_decide text, decide_eq_true_eq]
  exact apart.2.2 entry.1 (List.mem_map_of_mem member) key (by simp)

theorem readEntriesWithin?_entry (text : key.isText = true) (value : ReadsBack v)
    (begins : ∀ t, Begins (v.source.toList ++ t)) (ends : Ends rest)
    (enough : 2 * ((key.source ++ ": " ++ v.source).toList.length + 1) ≤ bound + 1) :
    readEntriesWithin? (bound + 1) known ((key.source ++ ": " ++ v.source).toList ++ rest) =
      if v.isLiteral then
        match skipSpaces rest with
        | '\x7d' :: rest => some (known.put key v, rest)
        | ',' :: rest => readEntriesWithin? bound (known.put key v) (skipSpaces rest)
        | _ => none
      else none := by
  cases key with
  | text k =>
      have colon : ((Value.text k).source ++ ": " ++ v.source).toList =
          (Value.text k).source.toList ++ ':' :: ' ' :: v.source.toList := by
        rw [String.toList_append, String.toList_append, List.append_assoc]
        rfl
      rw [colon, List.length_append, List.length_cons, List.length_cons] at enough
      have read : readWithin? bound ((Value.text k).source.toList ++
          ':' :: ' ' :: (v.source.toList ++ rest)) =
            some (.text k, ':' :: ' ' :: (v.source.toList ++ rest)) :=
        readsBack_of_isAtom rfl (Value.isWritable_text k) bound _ (by omega)
          (ends_cons (by decide))
      rw [colon, List.append_assoc, List.cons_append, List.cons_append,
        readEntriesWithin?_key (source_begins (v := .text k) trivial (Value.isWritable_text k) _)
          (begins _) rfl read, value bound rest (by omega) ends]
      cases v.isLiteral <;> rfl
  | _ => cases text

theorem entriesReadBack_cons (text : key.isText = true)
    (begins : ∀ t, Begins (v.source.toList ++ t)) (first : ReadsBack v)
    (later : EntriesReadBack entries)
    (begins' : entries ≠ [] →
      ∀ t, Begins ((Value.commaJoined (Value.entrySources entries)).toList ++ t)) :
    EntriesReadBack ((key, v) :: entries) := by
  intro known keyed bound rest enough
  obtain ⟨bound, rfl⟩ : ∃ less, bound = less + 1 := ⟨bound - 1, by omega⟩
  have both : Value.areLiteralEntries ((key, v) :: entries) =
      (v.isLiteral && Value.areLiteralEntries entries) := by
    cases key with
    | text => rfl
    | _ => cases text
  have put := put_of_textKeyed keyed
  rw [Value.entrySources_cons] at enough ⊢
  cases entries with
  | nil =>
      have none : Value.entrySources [] = [] := rfl
      rw [none, toList_commaJoined_singleton] at enough ⊢
      rw [readEntriesWithin?_entry text first begins (ends_cons (by decide)) enough, both, put]
      cases v.isLiteral <;> rfl
  | cons next entries =>
      obtain ⟨other, w⟩ := next
      rw [Value.entrySources_cons, toList_commaJoined_cons, ← Value.entrySources_cons] at enough ⊢
      rw [List.length_append, List.length_cons, List.length_cons] at enough
      rw [List.append_assoc, List.cons_append, List.cons_append,
        readEntriesWithin?_entry text first begins (ends_cons (by decide)) (by omega), both, put]
      cases v.isLiteral with
      | false => rfl
      | true =>
          show readEntriesWithin? bound _ (skipSpaces (' ' :: _)) = _
          rw [skipSpaces_space (begins' (List.cons_ne_nil _ _) _),
            later (known ++ [(key, v)]) (by rwa [List.append_assoc]) bound rest (by omega),
            List.append_assoc, Bool.true_and]
          rfl

end entries

/-! ### All values -/

theorem exists_commaJoined (part : String) (parts : List String) :
    ∃ more, (Value.commaJoined (part :: parts)).toList = part.toList ++ more := by
  cases parts with
  | nil => exact ⟨[], by rw [toList_commaJoined_singleton, List.append_nil]⟩
  | cons next parts => exact ⟨_, toList_commaJoined_cons part next parts⟩

theorem sources_begin {items : List Value} (data : Value.AreData items)
    (writable : Value.areWritable items = true) (nonempty : items ≠ []) (t : List Char) :
    Begins ((Value.commaJoined (Value.sources items)).toList ++ t) := by
  cases items with
  | nil => exact absurd rfl nonempty
  | cons v items =>
      obtain ⟨more, same⟩ := exists_commaJoined v.source (Value.sources items)
      rw [Value.sources_cons, same, List.append_assoc]
      exact source_begins data.1 (Bool.and_eq_true_iff.mp writable).1 _

theorem entrySources_begin {entries : Table} (texts : ∀ key ∈ entries.keys, key.isText = true)
    (nonempty : entries ≠ []) (t : List Char) :
    Begins ((Value.commaJoined (Value.entrySources entries)).toList ++ t) := by
  cases entries with
  | nil => exact absurd rfl nonempty
  | cons entry entries =>
      obtain ⟨key, v⟩ := entry
      obtain ⟨more, same⟩ := exists_commaJoined (key.source ++ ": " ++ v.source)
        (Value.entrySources entries)
      have text := (List.forall_mem_cons.mp texts).1
      rw [Value.entrySources_cons, same, String.toList_append, String.toList_append,
        List.append_assoc, List.append_assoc, List.append_assoc]
      cases key with
      | text k => exact source_begins (v := .text k) trivial (Value.isWritable_text k) _
      | _ => cases text

theorem readsBack_list {items : List Value} (h : ItemsReadBack items)
    (begins : items ≠ [] → ∀ t, Begins ((Value.commaJoined (Value.sources items)).toList ++ t)) :
    ReadsBack (.list items) := by
  intro bound rest enough ends
  have written : (Value.list items).source.toList =
      '[' :: ((Value.commaJoined (Value.sources items)).toList ++ [']']) := by
    rw [Value.source_list, String.toList_append, String.toList_append]
    rfl
  rw [written, List.length_cons, List.length_append, List.length_singleton] at enough
  obtain ⟨bound, rfl⟩ : ∃ less, bound = less + 1 := ⟨bound - 1, by omega⟩
  have visible : skipSpaces ((Value.commaJoined (Value.sources items)).toList ++ ']' :: rest) =
      (Value.commaJoined (Value.sources items)).toList ++ ']' :: rest := by
    cases items with
    | nil => exact skipSpaces_of_delimiter (by decide)
    | cons v items => exact (begins (List.cons_ne_nil v items) _).skipSpaces
  have literal : (Value.list items).isLiteral = Value.areLiteral items := rfl
  rw [written, List.cons_append, List.append_assoc, List.singleton_append, readWithin?, visible,
    h bound rest (by omega), literal]
  cases Value.areLiteral items <;> rfl

theorem readsBack_table {entries : Table} (h : EntriesReadBack entries)
    (keyed : entries.TextKeyed)
    (begins : entries ≠ [] →
      ∀ t, Begins ((Value.commaJoined (Value.entrySources entries)).toList ++ t)) :
    ReadsBack (.table entries) := by
  intro bound rest enough ends
  have written : (Value.table entries).source.toList =
      '\x7b' :: ((Value.commaJoined (Value.entrySources entries)).toList ++ ['\x7d']) := by
    rw [Value.source_table, String.toList_append, String.toList_append]
    rfl
  rw [written, List.length_cons, List.length_append, List.length_singleton] at enough
  obtain ⟨bound, rfl⟩ : ∃ less, bound = less + 1 := ⟨bound - 1, by omega⟩
  have visible :
      skipSpaces ((Value.commaJoined (Value.entrySources entries)).toList ++ '\x7d' :: rest) =
        (Value.commaJoined (Value.entrySources entries)).toList ++ '\x7d' :: rest := by
    cases entries with
    | nil => exact skipSpaces_of_delimiter (by decide)
    | cons entry entries => exact (begins (List.cons_ne_nil entry entries) _).skipSpaces
  have literal : (Value.table entries).isLiteral = Value.areLiteralEntries entries := rfl
  rw [written, List.cons_append, List.append_assoc, List.singleton_append, readWithin?, visible,
    h [] keyed bound rest (by omega), literal]
  cases Value.areLiteralEntries entries <;> rfl

mutual

theorem readsBack : ∀ v : Value, v.IsData → v.isWritable = true → ReadsBack v
  | .list items, data, writable =>
      readsBack_list (itemsReadBack items data writable) (sources_begin data writable)
  | .table entries, data, writable =>
      readsBack_table (entriesReadBack entries data.1.texts data.2 writable) data.1
        (entrySources_begin data.1.texts)
  | .set _, data, _ | .frozenset _, data, _ => data.elim
  | .null, _, writable | .bool _, _, writable | .int _, _, writable | .float _, _, writable
  | .text _, _, writable | .date _, _, writable | .time _, _, writable
  | .datetime _, _, writable => readsBack_of_isAtom rfl writable

theorem itemsReadBack : ∀ items : List Value, Value.AreData items →
    Value.areWritable items = true → ItemsReadBack items
  | [], _, _ => itemsReadBack_nil
  | v :: items, data, writable => by
      obtain ⟨first, later⟩ := Bool.and_eq_true_iff.mp writable
      exact itemsReadBack_cons (source_begins data.1 first) (readsBack v data.1 first)
        (itemsReadBack items data.2 later) (sources_begin data.2 later)

theorem entriesReadBack : ∀ entries : Table, (∀ key ∈ entries.keys, key.isText = true) →
    Value.EntriesAreData entries → Value.areWritableEntries entries = true →
    EntriesReadBack entries
  | [], _, _, _ => entriesReadBack_nil
  | (key, v) :: entries, texts, data, writable => by
      obtain ⟨both, later⟩ := Bool.and_eq_true_iff.mp writable
      obtain ⟨-, first⟩ := Bool.and_eq_true_iff.mp both
      obtain ⟨text, texts⟩ := List.forall_mem_cons.mp texts
      exact entriesReadBack_cons text (source_begins data.1 first) (readsBack v data.1 first)
        (entriesReadBack entries texts data.2 later) (entrySources_begin texts)

end

/-! ### Dates and times -/

theorem readDecimal?_stops {whole : List Char} (left : List Char) (h : Toml.IsWhole whole)
    (read : Toml.readWhole? (whole ++ left) = some (whole, left))
    (ends : ∀ c ∈ left.head?, c ∉ ['.', 'e', 'E']) :
    ∃ r, Toml.readDecimal? (whole ++ left) = some (r, left) := by
  have fraction : Toml.readFraction? left = none :=
    Toml.readFraction?_none fun c hc same => ends c hc (by simp [same])
  have power : Toml.readPower? left = none := Toml.readPower?_none fun c hc =>
    ⟨fun same => ends c hc (by simp [same]), fun same => ends c hc (by simp [same])⟩
  have unsigned := h.splitSign false left
  rw [Toml.sign, if_neg Bool.false_ne_true, List.nil_append] at unsigned
  by_cases long : Numeral.maxDigits < whole.length
  · exact ⟨.error .numberTooLong, by
      simp [Toml.readDecimal?, unsigned, read, fraction, power, long]⟩
  · exact ⟨.ok (.int (Numeral.ofDigits whole)), by
      simp [Toml.readDecimal?, unsigned, read, fraction, power, long]⟩

/-- Digits that are followed by something else are not all that is read. -/
theorem readDecimal?_digits {digits t : List Char} (nonempty : digits ≠ [])
    (all : ∀ d ∈ digits, isAsciiDigit d = true) (separates : c ∈ ['-', ':']) :
    ∃ r left, Toml.readDecimal? (digits ++ c :: t) = some (r, left) ∧ left ≠ [] := by
  have separator : ∀ c ∈ ['-', ':'], isAsciiDigit c = false ∧ c ≠ '_' ∧ c ∉ ['.', 'e', 'E'] :=
    List.all_iff_forall_prop.mp (by decide)
  have digit : ∀ d ∈ ['.', 'e', 'E'], isAsciiDigit d = false :=
    List.all_iff_forall_prop.mp (by decide)
  obtain ⟨d, digits, rfl⟩ := List.exists_cons_of_ne_nil nonempty
  by_cases zero : d = '0'
  · subst zero
    have whole : Toml.IsWhole ['0'] := ⟨by simp [isAsciiDigit], Or.inl rfl⟩
    obtain ⟨r, read⟩ := readDecimal?_stops (digits ++ c :: t) whole rfl (by
      cases digits with
      | nil =>
          rintro d ⟨rfl⟩
          exact (separator _ separates).2.2
      | cons d digits =>
          rintro d ⟨rfl⟩ letter
          have := all d (by simp)
          rw [digit d letter] at this
          cases this)
    exact ⟨r, _, read, by simp⟩
  · have whole : Toml.IsWhole (d :: digits) := ⟨all, Or.inr ⟨d, digits, rfl, zero⟩⟩
    obtain ⟨r, read⟩ := readDecimal?_stops (c :: t) whole (whole.read (by
      rintro d ⟨rfl⟩
      exact ⟨(separator _ separates).1, (separator _ separates).2.1⟩)) (by
      rintro d ⟨rfl⟩
      exact (separator _ separates).2.2)
    exact ⟨r, _, read, List.cons_ne_nil c t⟩

/-- What words, texts, lists and tables begin with. -/
theorem ne_of_isAsciiDigit (digit : isAsciiDigit c = true) :
    ∀ d ∈ ['"', '\'', '[', '\x7b', 'T', 'F', 'N'], c ≠ d := by
  have apart : ∀ d ∈ ['"', '\'', '[', '\x7b', 'T', 'F', 'N'], isAsciiDigit d = false :=
    List.all_iff_forall_prop.mp (by decide)
  rintro d member rfl
  rw [apart c member] at digit
  cases digit

theorem readWord?_digit (digit : isAsciiDigit c = true) : readWord? (c :: s) = none := by
  have nameless : ∀ word, wordValue? (c :: word) = none := by
    intro word
    have first := ne_of_isAsciiDigit digit
    have not_true : c :: word ≠ "True".toList := fun same =>
      first 'T' (by decide) (List.cons.inj same).1
    have not_false : c :: word ≠ "False".toList := fun same =>
      first 'F' (by decide) (List.cons.inj same).1
    have not_none : c :: word ≠ "None".toList := fun same =>
      first 'N' (by decide) (List.cons.inj same).1
    rw [wordValue?, if_neg not_true, if_neg not_false, if_neg not_none]
  rw [readWord?, List.takeWhile_cons]
  split_ifs
  · rw [nameless]
    rfl
  · rfl

theorem evaluate?_digits {digits t : List Char} (nonempty : digits ≠ [])
    (all : ∀ d ∈ digits, isAsciiDigit d = true) (separates : c ∈ ['-', ':']) :
    evaluate? (digits ++ c :: t) = none := by
  obtain ⟨r, left, read, something⟩ := readDecimal?_digits (t := t) nonempty all separates
  obtain ⟨d, digits, rfl⟩ := List.exists_cons_of_ne_nil nonempty
  have digit := all d List.mem_cons_self
  have simple : d ∉ ['[', '\x7b'] := fun member =>
    ne_of_isAsciiDigit digit d (List.mem_cons_of_mem _ (List.mem_cons_of_mem _
      (List.mem_append_left ['T', 'F', 'N'] member))) rfl
  have unmarked : d ∉ marks := fun member =>
    ne_of_isAsciiDigit digit d (List.mem_append_left ['[', '\x7b', 'T', 'F', 'N'] member) rfl
  rw [List.cons_append] at read ⊢
  rw [evaluate?, readWithin?_atom simple]
  cases r with
  | ok v =>
      obtain ⟨c, left, rfl⟩ := List.exists_cons_of_ne_nil something
      rw [readAtom?_number read]
  | error fault =>
      rw [readAtom?, readText?_none unmarked, readNumber?, read, readWord?_digit digit]
      rfl

/-- A number with zeros in front is written with digits. -/
theorem evaluate?_padded (width n : Nat) (separates : c ∈ ['-', ':']) (t : List Char) :
    evaluate? ((padded width n).toList ++ c :: t) = none := by
  rw [padded, String.toList_ofList]
  refine evaluate?_digits (by simp [Nat.toDigits_ne_nil]) (List.forall_mem_append.mpr
    ⟨Binary64.isAsciiDigit_of_mem_replicate, fun _ => Toml.isAsciiDigit_of_mem_toDigits⟩)
    separates

theorem exists_date_text (d : Date) :
    ∃ t, d.text.toList = (padded 4 d.year).toList ++ '-' :: t := by
  refine ⟨(padded 2 d.month).toList ++ '-' :: (padded 2 d.day).toList, ?_⟩
  simp only [Date.text, String.toList_append, String.reduceToList, List.append_assoc,
    List.cons_append, List.nil_append]

theorem exists_time_text (t : TimeOfDay) :
    ∃ u, t.text.toList = (padded 2 t.hour).toList ++ ':' :: u := by
  refine ⟨(padded 2 t.minute).toList ++ ':' :: ((padded 2 t.second).toList ++
    (if t.microsecond == 0 then "" else "." ++ padded 6 t.microsecond).toList), ?_⟩
  simp only [TimeOfDay.text, String.toList_append, String.reduceToList, List.append_assoc,
    List.cons_append, List.nil_append]

theorem exists_datetime_text (t : DateTime) (separator : String) :
    ∃ u, (t.text separator).toList = (padded 4 t.date.year).toList ++ '-' :: u := by
  obtain ⟨u, written⟩ := exists_date_text t.date
  rw [DateTime.text, String.toList_append, String.toList_append, String.toList_append, written]
  simp only [List.append_assoc, List.cons_append]
  exact ⟨_, rfl⟩

/-! ### Expressions -/

/-- **Expressions of values.**  What a value of a document other than a text is written as has the
value if there are literals for all its parts, and otherwise it is no expression of literals. -/
theorem evaluate?_plain (data : v.IsData) (writable : v.isWritable = true)
    (other : v.isText = false) :
    evaluate? v.plain.toList = if v.isLiteral then some v else none := by
  have whole : evaluate? v.source.toList = if v.isLiteral then some v else none := by
    have read := readsBack v data writable (2 * v.source.toList.length + 1) [] (by omega) nofun
    rw [List.append_nil] at read
    rw [evaluate?, read]
    cases v.isLiteral <;> rfl
  cases v with
  | date d =>
      obtain ⟨t, written⟩ := exists_date_text d
      show evaluate? d.text.toList = none
      rw [written, evaluate?_padded _ _ (by decide)]
  | time t =>
      obtain ⟨u, written⟩ := exists_time_text t
      show evaluate? t.text.toList = none
      rw [written, evaluate?_padded _ _ (by decide)]
  | datetime t =>
      obtain ⟨u, written⟩ := exists_datetime_text t " "
      show evaluate? (t.text " ").toList = none
      rw [written, evaluate?_padded _ _ (by decide)]
  | text => cases other
  | _ => exact whole

theorem plain_ne_empty (data : v.IsData) (writable : v.isWritable = true)
    (other : v.isText = false) : v.plain ≠ "" := by
  have source : v.source.toList ≠ [] := by
    obtain ⟨c, t, written, -⟩ := source_begins data writable []
    rw [List.append_nil] at written
    rw [written]
    exact List.cons_ne_nil c t
  intro none
  have empty : v.plain.toList = [] := by rw [none]; rfl
  cases v with
  | date d =>
      obtain ⟨t, written⟩ := exists_date_text d
      exact List.append_ne_nil_of_right_ne_nil _ (List.cons_ne_nil _ t) (written.symm.trans empty)
  | time t =>
      obtain ⟨u, written⟩ := exists_time_text t
      exact List.append_ne_nil_of_right_ne_nil _ (List.cons_ne_nil _ u) (written.symm.trans empty)
  | datetime t =>
      obtain ⟨u, written⟩ := exists_datetime_text t " "
      exact List.append_ne_nil_of_right_ne_nil _ (List.cons_ne_nil _ u) (written.symm.trans empty)
  | text => cases other
  | _ => exact source empty

end Preferences.Expression

import Mathlib.Logic.Relation
import Preferences.Proofs.Settings.Types
import Preferences.Proofs.Source.ImportOrder

/-! # Which method a type resolves to

Several spellings of a type share one place in a table, so what a type resolves to is told by the
whole history of the table: it is the method of the last entry whose type is this one but for blanks
(`Serves`).  Blanks may be inserted and taken out anywhere (`Respaced`), and nothing else may: the
spellings of one type are those with one normal form (`respaced_iff`).

Resolvers stand side by side in memory, next to the table of the standard methods, each with a table
of its own (`Resolvers`).  A step enters a method in one table, so after a run every resolver serves
what was entered with it, and the standard methods are what they were (`run_serves`). -/

namespace Preferences

/-! ### Blanks in a type -/

/-- The second text is the first one with one blank more. -/
inductive BlankInserted : String → String → Prop
  | between (front back : List Char) {c : Char} (blank : Text.isBlank c = true) :
      BlankInserted (String.ofList (front ++ back)) (String.ofList (front ++ c :: back))

/-- The texts are the same but for blanks that are inserted or taken out. -/
def Respaced : String → String → Prop := Relation.EqvGen BlankInserted

theorem normalizeType_normalizeType (t : String) :
    normalizeType (normalizeType t) = normalizeType t := by
  simp only [normalizeType, String.toList_ofList, Text.removeBlanks_removeBlanks]

theorem BlankInserted.normalizeType_eq {s t : String} (h : BlankInserted s t) :
    normalizeType s = normalizeType t := by
  obtain ⟨front, back, blank⟩ := h
  simp [normalizeType, Text.removeBlanks, blank]

/-- Taking out the blanks behind any text is a matter of blanks. -/
theorem respaced_removeBlanks (front s : List Char) :
    Respaced (String.ofList (front ++ s)) (String.ofList (front ++ Text.removeBlanks s)) := by
  induction s generalizing front with
  | nil => exact Relation.EqvGen.refl _
  | cons c rest ih =>
      by_cases blank : Text.isBlank c = true
      · have less : Text.removeBlanks (c :: rest) = Text.removeBlanks rest := by
          simp [Text.removeBlanks, blank]
        rw [less]
        exact .trans _ _ _ (.symm _ _ (.rel _ _ (.between front rest blank))) (ih front)
      · have kept : Text.removeBlanks (c :: rest) = c :: Text.removeBlanks rest := by
          simp [Text.removeBlanks, blank]
        rw [kept, List.append_cons front c rest, List.append_cons front c (Text.removeBlanks rest)]
        exact ih (front ++ [c])

theorem respaced_normalizeType (t : String) : Respaced t (normalizeType t) := by
  have respaced := respaced_removeBlanks [] t.toList
  rwa [List.nil_append, List.nil_append, String.ofList_toList] at respaced

/-- Texts are the same but for blanks exactly if they have one normal form. -/
theorem respaced_iff {s t : String} : Respaced s t ↔ normalizeType s = normalizeType t := by
  constructor
  · intro h
    induction h with
    | rel _ _ inserted => exact inserted.normalizeType_eq
    | refl _ => rfl
    | symm _ _ _ ih => exact ih.symm
    | trans _ _ _ _ _ first second => exact first.trans second
  · intro same
    have back := Relation.EqvGen.symm _ _ (respaced_normalizeType t)
    rw [← same] at back
    exact .trans _ _ _ (respaced_normalizeType s) back

namespace StorageTable

/-- A type expression and the method that is entered for it. -/
abbrev Entry := String × StorageMethod

def types (table : StorageTable) : List String := table.entries.map Prod.fst

/-- The method is that of the last entry for the type, where blanks do not count. -/
def LastFor (valueType : String) (method : StorageMethod) (entries : List Entry) : Prop :=
  ∃ before spelling after, entries = before ++ (spelling, method) :: after ∧
    normalizeType spelling = normalizeType valueType ∧
    ∀ entry ∈ after, normalizeType entry.1 ≠ normalizeType valueType

/-- The table answers as these entries, one after the other, ask for. -/
structure Serves (table : StorageTable) (entries : List Entry) : Prop where
  resolve : ∀ valueType method,
    table.resolve? valueType = some method ↔ LastFor valueType method entries
  unresolved : ∀ valueType, table.resolve? valueType = none ↔
    ∀ entry ∈ entries, normalizeType entry.1 ≠ normalizeType valueType
  ascend : table.supportedTypes.Pairwise (· < ·)
  support : ∀ valueType, valueType ∈ table.supportedTypes ↔
    ∃ entry ∈ entries, normalizeType entry.1 = valueType
  known : ∀ valueType, (∃ method, table.resolve? valueType = some method) ↔
    normalizeType valueType ∈ table.supportedTypes

section table
variable {table : StorageTable} {entries : List Entry} {valueType spelling : String}
  {method other : StorageMethod}

/-! ### One more entry -/

theorem lookup_replaceOrAppend {α : Type} (name key : String) (entry : α)
    (entries : List (String × α)) : (replaceOrAppend name entry entries).lookup key =
      if name = key then some entry else entries.lookup key := by
  have lookup_cons : ∀ known old (rest : List (String × α)), ((known, old) :: rest).lookup key =
      if known = key then some old else rest.lookup key := by
    intro known old rest
    by_cases same : known = key
    · rw [same, List.lookup_cons_self, if_pos rfl]
    · rw [List.lookup_cons, beq_false_of_ne (Ne.symm same), if_neg same]
  induction entries with
  | nil => rw [replaceOrAppend, lookup_cons]
  | cons first rest ih =>
      obtain ⟨known, old⟩ := first
      rw [replaceOrAppend]
      by_cases entered : known = name
      · subst entered
        rw [if_pos rfl, lookup_cons, lookup_cons]
        split_ifs <;> rfl
      · rw [if_neg entered, lookup_cons, lookup_cons, ih]
        by_cases same : known = key
        · rw [if_pos same, if_neg fun h => entered (same.trans h.symm), if_pos same]
        · rw [if_neg same, if_neg same]

theorem resolve?_register : (table.register spelling method).resolve? valueType =
    if normalizeType spelling = normalizeType valueType then some method
    else table.resolve? valueType :=
  lookup_replaceOrAppend _ _ _ _

theorem types_register : (table.register spelling method).types =
    if normalizeType spelling ∈ table.types then table.types
    else table.types ++ [normalizeType spelling] := by
  unfold types register
  generalize normalizeType spelling = name
  induction table.entries with
  | nil => rfl
  | cons first rest ih =>
      obtain ⟨known, old⟩ := first
      rw [replaceOrAppend]
      by_cases same : known = name
      · simp [same]
      · rw [if_neg same, List.map_cons, List.map_cons, ih]
        by_cases later : name ∈ rest.map Prod.fst
        · rw [if_pos later, if_pos (List.mem_cons_of_mem _ later)]
        · rw [if_neg later, if_neg (List.not_mem_cons_of_ne_of_not_mem (Ne.symm same) later),
            List.cons_append]

theorem mem_types_register : valueType ∈ (table.register spelling method).types ↔
    valueType ∈ table.types ∨ valueType = normalizeType spelling := by
  rw [types_register]
  split_ifs with known
  · exact ⟨Or.inl, fun h => h.elim id fun same => same ▸ known⟩
  · rw [List.mem_append, List.mem_singleton]

theorem nodup_types_register (nodup : table.types.Nodup) :
    (table.register spelling method).types.Nodup := by
  rw [types_register]
  split_ifs with known
  · exact nodup
  · rw [← List.concat_eq_append]
    exact nodup.concat known

theorem lastFor_concat : LastFor valueType method (entries ++ [(spelling, other)]) ↔
    if normalizeType spelling = normalizeType valueType then other = method
    else LastFor valueType method entries := by
  constructor
  · -- Nothing comes behind the entry that counts, or the last one does.
    rintro ⟨before, last, after, split, same, later⟩
    rcases List.eq_nil_or_concat after with rfl | ⟨between, entry, rfl⟩
    · obtain ⟨rfl, rfl, rfl⟩ := by simpa using List.append_inj' split rfl
      rw [if_pos same]
    · rw [List.concat_eq_append, ← List.cons_append, ← List.append_assoc] at split
      obtain ⟨rfl, rfl⟩ := by simpa using List.append_inj' split rfl
      rw [if_neg (later (spelling, other) (by simp))]
      exact ⟨before, last, between, rfl, same, fun entry h => later entry (by simp [h])⟩
  · split_ifs with same
    · rintro rfl
      exact ⟨entries, spelling, [], rfl, same, List.forall_mem_nil _⟩
    · rintro ⟨before, last, after, rfl, found, later⟩
      refine ⟨before, last, after ++ [(spelling, other)], by simp, found, fun entry h => ?_⟩
      rcases List.mem_append.mp h with h | h
      · exact later entry h
      · rw [List.mem_singleton.mp h]
        exact same

/-! ### The whole history -/

theorem ofList_concat {entry : Entry} :
    ofList (entries ++ [entry]) = (ofList entries).register entry.1 entry.2 := by
  rw [ofList, List.foldl_append]
  rfl

theorem resolve?_ofList :
    (ofList entries).resolve? valueType = some method ↔ LastFor valueType method entries := by
  induction entries using List.reverseRecOn with
  | nil =>
      refine iff_of_false (by rintro ⟨⟩) ?_
      rintro ⟨before, last, after, split, _⟩
      simp at split
  | append_singleton entries entry ih =>
      rw [ofList_concat, resolve?_register, lastFor_concat]
      split_ifs
      · exact Option.some_inj
      · exact ih

theorem mem_types_ofList : valueType ∈ (ofList entries).types ↔
    ∃ entry ∈ entries, normalizeType entry.1 = valueType := by
  induction entries using List.reverseRecOn with
  | nil => simp [ofList, types, empty]
  | append_singleton entries entry ih =>
      rw [ofList_concat, mem_types_register, ih]
      simp [or_and_right, exists_or, eq_comm]

theorem nodup_types_ofList : (ofList entries).types.Nodup := by
  induction entries using List.reverseRecOn with
  | nil => exact List.nodup_nil
  | append_singleton entries entry ih =>
      rw [ofList_concat]
      exact nodup_types_register ih

theorem resolve?_eq_none :
    table.resolve? valueType = none ↔ normalizeType valueType ∉ table.types := by
  rw [resolve?, List.lookup_eq_none_iff]
  constructor
  · intro absent known
    obtain ⟨entry, h, same⟩ := List.mem_map.mp known
    simpa [same] using absent entry h
  · intro absent entry h
    exact bne_iff_ne.mpr fun same => absent (List.mem_map.mpr ⟨entry, h, same.symm⟩)

theorem mem_supportedTypes : valueType ∈ table.supportedTypes ↔ valueType ∈ table.types :=
  Source.mem_ascending

theorem serves_ofList (entries : List Entry) : (ofList entries).Serves entries where
  resolve _ _ := resolve?_ofList
  unresolved valueType := by
    rw [resolve?_eq_none, mem_types_ofList]
    push Not
    rfl
  ascend := Source.ascending_pairwise_lt nodup_types_ofList
  support _ := mem_supportedTypes.trans mem_types_ofList
  known valueType := by
    rw [mem_supportedTypes, ← Option.isSome_iff_exists, Option.isSome_iff_ne_none, ne_eq,
      resolve?_eq_none, not_not]

theorem standard_eq_ofList : ofList standard.entries = standard := by decide

/-! ### Other spellings -/

/-- The entries are the same but for blanks in their types. -/
def Alike (entry entry' : Entry) : Prop := Respaced entry.1 entry'.1 ∧ entry.2 = entry'.2

theorem resolve?_respaced {t t' : String} (respaced : Respaced t t') :
    table.resolve? t = table.resolve? t' := by
  rw [resolve?, resolve?, respaced_iff.mp respaced]

theorem register_alike {entry entry' : Entry} (alike : Alike entry entry') :
    table.register entry.1 entry.2 = table.register entry'.1 entry'.2 := by
  rw [register, register, respaced_iff.mp alike.1, alike.2]

theorem ofList_alike {entries' : List Entry} (alike : List.Forall₂ Alike entries entries') :
    ofList entries = ofList entries' := by
  unfold ofList
  generalize empty = table
  induction alike generalizing table with
  | nil => rfl
  | cons first _ ih =>
      rw [List.foldl_cons, List.foldl_cons, register_alike first]
      exact ih _

end table

end StorageTable

/-! ### Resolvers side by side -/

/-- Resolvers in memory.  The table of the standard methods has the first place, and each resolver
has a table at a place of its own. -/
structure Resolvers where
  tables : List StorageTable
  places : List Nat

namespace Resolvers

open StorageTable (Entry ofList)

/-- A resolver is made, with the standard methods where none are given, or it gets an entry. -/
inductive Step
  | make (methods : Option (List Entry))
  | register (resolver : Nat) (entry : Entry)

/-- There are no resolvers yet. -/
def start : Resolvers := ⟨[StorageTable.standard], []⟩

/-- The table of the standard methods. -/
def standard? (r : Resolvers) : Option StorageTable := r.tables[0]?

def table? (r : Resolvers) (n : Nat) : Option StorageTable := r.places[n]?.bind (r.tables[·]?)

/-- A new resolver takes its methods into a new table, and an entry changes the table at the place
of its resolver.  The standard methods are those that their table has by then. -/
def step (r : Resolvers) : Step → Resolvers
  | .make methods =>
    let given := methods.getD (r.standard?.getD .empty).entries
    ⟨r.tables ++ [ofList given], r.places ++ [r.tables.length]⟩
  | .register n entry =>
    match r.places[n]? with
    | some place => { r with tables := r.tables.modify place (·.register entry.1 entry.2) }
    | none => r

/-- The resolvers after these steps. -/
def run (steps : List Step) : Resolvers := steps.foldl step start

/-- What has been entered with each resolver, with one step more. -/
def enter (histories : List (List Entry)) : Step → List (List Entry)
  | .make methods => histories ++ [methods.getD StorageTable.standard.entries]
  | .register n entry => histories.modify n (· ++ [entry])

/-- What has been entered with each resolver: what it was made with, then what it got. -/
def entered (steps : List Step) : List (List Entry) := steps.foldl enter []

/-- The steps are the same but for blanks in types. -/
inductive Step.Alike : Step → Step → Prop
  | default : Step.Alike (.make none) (.make none)
  | make {entries entries' : List Entry}
      (alike : List.Forall₂ StorageTable.Alike entries entries') :
      Step.Alike (.make (some entries)) (.make (some entries'))
  | register (n : Nat) {entry entry' : Entry} (alike : StorageTable.Alike entry entry') :
      Step.Alike (.register n entry) (.register n entry')

/-- Each resolver has the table of its own entries. -/
def ofHistories (histories : List (List Entry)) : Resolvers :=
  ⟨StorageTable.standard :: histories.map ofList, List.range' 1 histories.length⟩

section step
variable {histories : List (List Entry)} {n : Nat} {entry : Entry}

theorem getElem?_places :
    (ofHistories histories).places[n]? = if n < histories.length then some (n + 1) else none := by
  split_ifs with made
  · exact (List.getElem?_range' made).trans (congrArg some (by omega))
  · exact List.getElem?_eq_none (by simpa [ofHistories] using made)

theorem table?_ofHistories : (ofHistories histories).table? n = histories[n]?.map ofList := by
  rw [table?, getElem?_places]
  split_ifs with made
  · exact List.getElem?_map
  · rw [List.getElem?_eq_none (not_lt.mp made)]
    rfl

theorem map_ofList_modify : (histories.modify n (· ++ [entry])).map ofList =
    (histories.map ofList).modify n (·.register entry.1 entry.2) := by
  refine List.ext_getElem? fun i => ?_
  simp only [List.getElem?_map, List.getElem?_modify]
  cases histories[i]? with
  | none => rfl
  | some entries =>
      by_cases here : n = i
      · simp [here, StorageTable.ofList_concat]
      · simp [here]

/-- A step changes nothing but what it enters. -/
theorem step_ofHistories (s : Step) :
    (ofHistories histories).step s = ofHistories (enter histories s) := by
  cases s with
  | make methods =>
      cases methods <;>
        simp [step, enter, ofHistories, standard?, List.range'_concat, Nat.add_comm]
  | register n entry =>
      rw [step, getElem?_places]
      split_ifs with made
      · simp [enter, ofHistories, map_ofList_modify, List.modify_succ_cons]
      · rw [enter, List.modify_eq_self (not_lt.mp made)]

theorem step_alike {r : Resolvers} {s s' : Step} (alike : Step.Alike s s') :
    r.step s = r.step s' := by
  cases alike with
  | default => rfl
  | make alike => simp only [step, Option.getD_some, StorageTable.ofList_alike alike]
  | register n alike => simp only [step, StorageTable.register_alike alike]

end step

/-- After a run each resolver has the table of what was entered with it. -/
theorem run_eq (steps : List Step) : run steps = ofHistories (entered steps) := by
  unfold run entered
  change steps.foldl step (ofHistories []) = _
  generalize ([] : List (List Entry)) = histories
  induction steps generalizing histories with
  | nil => rfl
  | cons first rest ih =>
      rw [List.foldl_cons, List.foldl_cons, step_ofHistories]
      exact ih _

theorem run_alike {steps steps' : List Step} (alike : List.Forall₂ Step.Alike steps steps') :
    run steps = run steps' := by
  unfold run
  generalize start = r
  induction alike generalizing r with
  | nil => rfl
  | cons first _ ih =>
      rw [List.foldl_cons, List.foldl_cons, step_alike first]
      exact ih _

/-! ### The resolver of settings -/

theorem foldl_enter_register (types entries : List Entry) :
    (types.map (Step.register 0)).foldl enter [entries] = [entries ++ types] := by
  induction types generalizing entries with
  | nil => rw [List.append_nil]; rfl
  | cons first rest ih =>
      rw [List.append_cons, ← ih]
      rfl

/-- Settings enter their own types behind the standard ones. -/
theorem storageTable_eq {settings : Settings} {types : List Entry}
    (same : settings.types = types.map fun entry => (.text entry.1, entry.2)) :
    settings.storageTable = .ok (ofList (StorageTable.standard.entries ++ types)) := by
  have entering : ∀ (types : List Entry) (table : StorageTable),
      (types.map fun entry => (Value.text entry.1, entry.2)).foldlM Settings.registerEntry table =
        .ok (types.foldl (fun table entry => table.register entry.1 entry.2) table) := by
    intro types
    induction types with
    | nil => exact fun table => rfl
    | cons first rest ih => exact fun table => ih _
  rw [Settings.storageTable, same, entering, ofList, List.foldl_append, ← ofList,
    StorageTable.standard_eq_ofList]

/-- After any run, the table of the standard methods is what it was, and every resolver answers as
the entries that it was made with and those that it got ask for, one after the other.  A further
entry is no matter of the other resolvers, blanks in the types of a run or in the type that is asked
for are no matter at all, and settings have the table of the resolver that is made without methods
and gets their types. -/
theorem run_serves (steps : List Step) :
    (run steps).standard? = some StorageTable.standard ∧
    (∀ n entries, (entered steps)[n]? = some entries →
      ∃ table, (run steps).table? n = some table ∧ table.Serves entries) ∧
    (∀ n entry other, other ≠ n →
      (run (steps ++ [.register n entry])).table? other = (run steps).table? other) ∧
    (∀ steps', List.Forall₂ Step.Alike steps steps' → run steps' = run steps) ∧
    (∀ (table : StorageTable) s t, Respaced s t → table.resolve? s = table.resolve? t) ∧
    (∀ t, normalizeType (normalizeType t) = normalizeType t) ∧
    ∀ (settings : Settings) (types : List Entry),
      settings.types = types.map (fun entry => (.text entry.1, entry.2)) →
      ∃ table, settings.storageTable = .ok table ∧
        (run (.make none :: types.map (.register 0))).table? 0 = some table := by
  refine ⟨?standard, ?serves, ?others, fun steps' alike => (run_alike alike).symm,
    fun table s t => StorageTable.resolve?_respaced, normalizeType_normalizeType, ?settings⟩
  case standard =>
    rw [run_eq]
    rfl
  case serves =>
    intro n entries history
    refine ⟨ofList entries, ?_, StorageTable.serves_ofList entries⟩
    rw [run_eq, table?_ofHistories, history]
    rfl
  case others =>
    intro n entry other different
    have later : entered (steps ++ [.register n entry]) = (entered steps).modify n (· ++ [entry]) :=
      List.foldl_append
    rw [run_eq, run_eq, table?_ofHistories, table?_ofHistories, later,
      List.getElem?_modify_ne _ _ different.symm]
  case settings =>
    intro settings types same
    refine ⟨_, storageTable_eq same, ?_⟩
    rw [run_eq, table?_ofHistories]
    exact congrArg (fun histories => histories[0]?.map ofList)
      (foldl_enter_register types StorageTable.standard.entries)

/-- Two resolvers with spellings of one type, the second of which extends the standard methods. -/
theorem run_serves_spellings :
    let list : StorageMethod := ⟨"get_list", "put_list", "None"⟩
    let long : StorageMethod := ⟨"get_long", "put_long", "0"⟩
    let steps := [Step.make (some [("list[ str ]", long), ("list[str]", list)]), .make none,
      .register 1 (" in t", long)]
    (∃ table, (run steps).table? 0 = some table ∧ table.resolve? "list [str]" = some list ∧
      table.resolve? "int" = none) ∧
    (∃ table, (run steps).table? 1 = some table ∧ table.resolve? "int" = some long ∧
      "int" ∈ table.supportedTypes) ∧
    (run steps).standard? = some StorageTable.standard := by
  intro list long steps
  obtain ⟨standard, serves, -⟩ := run_serves steps
  obtain ⟨first, found, answers⟩ := serves 0 [("list[ str ]", long), ("list[str]", list)] rfl
  obtain ⟨second, found', answers'⟩ :=
    serves 1 (StorageTable.standard.entries ++ [(" in t", long)]) rfl
  have last : StorageTable.LastFor "int" long
      (StorageTable.standard.entries ++ [(" in t", long)]) :=
    ⟨_, _, [], rfl, by decide, List.forall_mem_nil _⟩
  have resolved := (answers'.resolve "int" long).mpr last
  refine ⟨⟨first, found, (answers.resolve _ _).mpr ?_, (answers.unresolved _).mpr (by decide)⟩,
    ⟨second, found', resolved, ?_⟩, standard⟩
  · exact ⟨[("list[ str ]", long)], "list[str]", [], rfl, by decide, List.forall_mem_nil _⟩
  · exact (answers'.known "int").mp ⟨long, resolved⟩

end Resolvers

end Preferences

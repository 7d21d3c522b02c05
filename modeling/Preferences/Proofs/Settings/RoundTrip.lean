import Preferences.Proofs.Settings.Reading
import Preferences.Proofs.Settings.Types

/-! # Settings that are written and read back

`Settings.toTable` and `Settings.ofValue` are written separately, each with its own names of the
entries.  What the one writes the other reads (`ofValue_toTable`), for any settings whatever.  What
is written for settings that were read are the entries that are known of the data, with the usual
values where it has none (`toTable_of_ofValue`).  So nothing that is known is lost on the way, and
both settings give the same style and the same storage methods (`read_back`). -/

namespace Preferences

open Naming (Style)

namespace Table

/-- The entries of a table under keys that are known, in the order of these.  Where the table has
none, it is what is usual there, if anything is. -/
def restrict (known : List (String × Option Value)) (entries : Table) : Table :=
  known.filterMap fun setting =>
    ((get? entries setting.1).or setting.2).map (Prod.mk (Value.text setting.1))

theorem get?_cons_text (key other : String) (value : Value) (rest : Table) :
    get? ((Value.text key, value) :: rest) (Value.text other) =
      if key = other then some value else get? rest other := by
  rw [get?_cons, Value.same_eq_decide rfl]
  simp

end Table

namespace Settings

/-! ### What is known of the data -/

def methodEntries : Value → Value
  | .table entries =>
    .table (Table.restrict [("get", none), ("put", none), ("default", some "None")] entries)
  | v => v

def typeEntries : Value → Value
  | .table methods => .table (methods.map fun entry => (entry.1, methodEntries entry.2))
  | v => v

def knownEntries (entries : Table) : Table :=
  Table.restrict [("naming", some "snake"), ("runtime_module", some defaultRuntimeModule),
    ("class_suffix", some "Impl"), ("header", some defaultHeader)] entries ++
  [(.text "types", typeEntries ((Table.get? entries "types").getD (.table [])))]

/-- The types that settings give storage methods for are texts. -/
def NamesTypes (entries : Table) : Prop :=
  ∀ methods, Table.get? entries "types" = some (.table methods) →
    ∀ entry ∈ methods, entry.1.isText = true

section path
variable {path : Option Path}

/-! ### What is written is read -/

theorem methodOf_methodTable (method : StorageMethod) :
    methodOf (methodTable method) = .ok method := by
  unfold methodTable methodOf
  simp [Table.get?_cons_text]

theorem methodsOf_methodTable (types : List (Value × StorageMethod)) :
    methodsOf path (types.map fun entry => (entry.1, methodTable entry.2)) = .ok types := by
  refine mapM_eq_ok_iff.mpr (List.forall₂_map_left_iff.mpr (List.forall₂_same.mpr ?_))
  intro entry _
  simp only [methodOf_methodTable]

theorem styleOf_name (style : Style) : styleOf path style.name = .ok style := by
  simp [styleOf, Value.isKey, Style.ofName?_name]

theorem ofValue_toTable (settings : Settings) : ofValue settings.toTable path = .ok settings := by
  unfold toTable
  rw [ofValue_table]
  simp [styleIn, typesIn, Table.get?_cons_text, styleOf_name, methodsOf_methodTable, ok_bind]

/-! ### What is read is written -/

theorem methodTable_of_methodOf {v : Value} {method : StorageMethod}
    (read : methodOf v = .ok method) : methodTable method = methodEntries v := by
  cases v with
  | table entries =>
      unfold methodOf at read
      cases getter : Table.get? entries "get" with
      | none => simp [getter] at read
      | some get =>
          cases putter : Table.get? entries "put" with
          | none => simp [getter, putter] at read
          | some put =>
              simp only [getter, putter] at read
              obtain rfl := Except.ok.inj read
              cases usual : Table.get? entries "default" <;>
                simp [methodTable, methodEntries, Table.restrict, getter, putter, usual]
  | _ => cases read

theorem of_typeOf {entry : Value × Value} {type : Value × StorageMethod}
    (read : typeOf path entry = .ok type) :
    type.1 = entry.1 ∧ methodTable type.2 = methodEntries entry.2 := by
  unfold typeOf at read
  cases given : methodOf entry.2 with
  | error fault =>
      rw [given] at read
      cases read
  | ok method =>
      rw [given] at read
      obtain rfl := Except.ok.inj read
      exact ⟨rfl, methodTable_of_methodOf given⟩

/-- The types stay as they were, and what is written of a method are its known entries. -/
theorem of_methodsOf {methods : Table} {types : List (Value × StorageMethod)}
    (read : methodsOf path methods = .ok types) :
    types.map Prod.fst = methods.map Prod.fst ∧
      types.map (fun entry => (entry.1, methodTable entry.2)) =
        methods.map fun entry => (entry.1, methodEntries entry.2) := by
  have each : List.Forall₂ (fun entry type => typeOf path entry = .ok type) methods types :=
    mapM_eq_ok_iff.mp read
  clear read
  induction each with
  | nil => exact ⟨rfl, rfl⟩
  | cons first _ ih =>
      obtain ⟨same, written⟩ := of_typeOf first
      simp [same, written, ih.1, ih.2]

theorem name_of_styleOf {v : Value} {style : Style} (read : styleOf path v = .ok style) :
    v = style.name := by
  unfold styleOf at read
  cases v with
  | text word =>
      cases named : Style.ofName? word with
      | none => simp [Value.isKey, named] at read
      | some other =>
          obtain rfl : other = style := by simpa [Value.isKey, named] using read
          have same := List.find?_some named
          rw [← beq_iff_eq.mp same]
  | _ => simp [Value.isKey] at read

theorem name_of_styleIn {entries : Table} {style : Style}
    (read : styleIn path entries = .ok style) :
    (Table.get? entries "naming").getD "snake" = style.name := by
  unfold styleIn at read
  cases given : Table.get? entries "naming" with
  | none =>
      rw [given] at read
      obtain rfl := Except.ok.inj read
      rfl
  | some v =>
      rw [given] at read
      exact name_of_styleOf read

theorem of_typesIn {entries : Table} {types : List (Value × StorageMethod)}
    (read : typesIn path entries = .ok types) :
    ∃ methods, (Table.get? entries "types").getD (.table []) = .table methods ∧
      methodsOf path methods = .ok types := by
  unfold typesIn at read
  cases given : (Table.get? entries "types").getD (.table []) with
  | table methods =>
      rw [given] at read
      exact ⟨methods, rfl, read⟩
  | _ =>
      rw [given] at read
      cases read

theorem of_ofValue_table {entries : Table} {settings : Settings}
    (read : ofValue (.table entries) path = .ok settings) :
    styleIn path entries = .ok settings.style ∧ typesIn path entries = .ok settings.types ∧
      settings.runtimeModule =
        (Table.get? entries "runtime_module").getD defaultRuntimeModule ∧
      settings.classSuffix = (Table.get? entries "class_suffix").getD "Impl" ∧
      settings.header = (Table.get? entries "header").getD defaultHeader := by
  rw [ofValue_table] at read
  obtain ⟨style, styled, read⟩ := bind_eq_ok_iff.mp read
  obtain ⟨types, typed, read⟩ := bind_eq_ok_iff.mp read
  obtain rfl := Except.ok.inj read
  exact ⟨styled, typed, rfl, rfl, rfl⟩

/-- What is written for settings that were read are the known entries. -/
theorem toTable_of_ofValue {entries : Table} {settings : Settings}
    (read : ofValue (.table entries) path = .ok settings) :
    settings.toTable = .table (knownEntries entries) := by
  obtain ⟨styled, typed, runtimeModule, classSuffix, header⟩ := of_ofValue_table read
  obtain ⟨methods, given, each⟩ := of_typesIn typed
  have restricted : ∀ key usual, (Table.get? entries key).or (some usual) =
      some ((Table.get? entries key).getD usual) := by
    intro key usual
    cases Table.get? entries key <;> rfl
  simp only [knownEntries, Table.restrict, List.filterMap_cons, List.filterMap_nil, restricted,
    Option.map_some, List.cons_append, List.nil_append]
  rw [toTable, ← name_of_styleIn styled, runtimeModule, classSuffix, header, given,
    (of_methodsOf each).2, typeEntries]

theorem isText_types_of_ofValue {entries : Table} {settings : Settings}
    (named : NamesTypes entries) (read : ofValue (.table entries) path = .ok settings) :
    ∀ entry ∈ settings.types, entry.1.isText = true := by
  obtain ⟨methods, given, each⟩ := of_typesIn (of_ofValue_table read).2.1
  have texts : ∀ valueType ∈ methods.map Prod.fst, valueType.isText = true := by
    cases found : Table.get? entries "types" with
    | none =>
        rw [found] at given
        cases given
        simp
    | some v =>
        rw [found] at given
        obtain rfl : v = .table methods := given
        exact List.forall_mem_map.mpr (named methods found)
  rw [← (of_methodsOf each).1] at texts
  exact List.forall_mem_map.mp texts

end path

/-! ### Both ways -/

/-- Settings that were read are written as the known entries of the data.  From these they are read
back as they were, wherever the table is said to come from, and both select the same style and the
same storage method for each type. -/
theorem read_back {data : Value} {path : Option Path} {settings : Settings}
    (read : ofValue data path = .ok settings) :
    ∃ entries, data = .table entries ∧ settings.toTable = .table (knownEntries entries) ∧
      ∃ again, (∀ other, ofValue settings.toTable other = .ok again) ∧ again = settings ∧
        again.style = settings.style ∧
        (NamesTypes entries → ∃ table table', settings.storageTable = .ok table ∧
          again.storageTable = .ok table' ∧
          ∀ valueType, table'.resolve? valueType = table.resolve? valueType) := by
  obtain ⟨entries, rfl⟩ : ∃ entries, data = .table entries := by
    by_contra other
    obtain ⟨misuse, failed⟩ := @ofValue_other path data fun entries same => other ⟨entries, same⟩
    rw [failed] at read
    cases read
  refine ⟨entries, rfl, toTable_of_ofValue read, settings, fun other => ofValue_toTable settings,
    rfl, rfl, fun named => ?_⟩
  obtain ⟨table, made⟩ := exists_foldlM_registerEntry (isText_types_of_ofValue named read)
    StorageTable.standard
  exact ⟨table, table, made, made, fun _ => rfl⟩

/-- Data with two spellings of one type, a method without a default and two entries that are not
known. -/
def listsTwice : Table :=
  [("naming", "camel"), ("colour", .int 5),
    ("types", .table [
      ("list[ str ]", .table [("put", "put_texts"), ("get", "get_texts"), ("size", .int 3)]),
      ("list[str]", .table [("get", "get_list"), ("put", "put_list"), ("default", "[]")])])]

def listedTwice : Settings where
  style := .camel
  types := [("list[ str ]", ⟨"get_texts", "put_texts", "None"⟩),
    ("list[str]", ⟨"get_list", "put_list", "[]"⟩)]

/-- The later spelling counts, before and after. -/
theorem read_back_listsTwice :
    ofValue (.table listsTwice) none = .ok listedTwice ∧ NamesTypes listsTwice ∧
    listedTwice.toTable = .table (knownEntries listsTwice) ∧
    ∃ again table, ofValue listedTwice.toTable none = .ok again ∧ again = listedTwice ∧
      again.storageTable = .ok table ∧
      table.resolve? "list[str ]" = some ⟨"get_list", "put_list", "[]"⟩ := by
  have read : ofValue (.table listsTwice) none = .ok listedTwice := by
    rw [listsTwice, ofValue_table]
    simp [styleIn, typesIn, Table.get?_cons_text, styleOf, Style.ofName?, Style.all, Style.name,
      Value.isKey, methodsOf, methodOf, ok_bind]
    rfl
  have named : NamesTypes listsTwice := by
    simp only [NamesTypes, listsTwice, Table.get?_cons_text]
    rintro methods ⟨⟩
    decide
  obtain ⟨entries, same, written, again, reread, rfl, -, resolved⟩ := read_back read
  cases same
  obtain ⟨table, table', made, remade, alike⟩ := resolved named
  have found : table.resolve? "list[str ]" = some ⟨"get_list", "put_list", "[]"⟩ := by
    obtain rfl := Except.ok.inj made
    decide +kernel
  exact ⟨read, named, written, listedTwice, table', reread none, rfl, remade,
    (alike _).trans found⟩

end Settings

end Preferences

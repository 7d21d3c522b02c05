import Preferences.Proofs.Failure.Computations
import Preferences.Settings.Files

/-! # Which settings are reported on

Reading settings is to fail only by telling the user which setting makes no sense.  `DataFits` and
`DocumentFits` say exactly when this is so (`load_reported`): the settings and the tables around
them have to be tables, the value in the place of a naming style has to be one that can be a key and
can be written, and so on.  What is wrong with a storage method is always told. -/

namespace Preferences

open Naming (Style)

/-- Whether a setting makes no sense. -/
def Failure.isSetting : Failure → Bool
  | .setting _ _ => true
  | _ => false

theorem Failure.isSetting_ofSetting (fault : SettingFault) (path : Option Path) :
    (Failure.ofSetting fault path).isSetting = fault.values.all Value.isWritable := by
  unfold Failure.ofSetting
  split_ifs with writable
  · rw [writable]
    rfl
  · rw [Bool.eq_false_iff.mpr writable]
    rfl

namespace Settings

/-! ### Settings of the right kinds -/

def namesStyle : Value → Bool
  | .text word => (Style.ofName? word).isSome
  | _ => false

/-- The settings of a table are taken or reported on.  The value in the place of a naming style can
be a key and can be written.  If it names a style, or there is none, then the storage methods are a
table, and the first type without a proper one can be written. -/
structure EntriesFit (entries : Table) : Prop where
  naming : ∀ v, Table.get? entries "naming" = some v → v.isKey = true ∧ v.isWritable = true
  types : (∀ v, Table.get? entries "naming" = some v → namesStyle v = true) →
    ∀ v, Table.get? entries "types" = some v → ∃ methods, v = .table methods ∧
      ∀ entry ∈ methods.find? fun entry => !(methodOf entry.2).isOk, entry.1.isWritable = true

/-- The settings are a table of settings that are taken or reported on. -/
def DataFits (data : Value) : Prop := ∃ entries, data = .table entries ∧ EntriesFit entries

/-- The settings in the document fit, wherever they stand. -/
def DocumentFits (document : Value) : Prop := ∃ entries, document = .table entries ∧
  match Table.get? entries "preferencer" with
  | some data => DataFits data
  | none => ∀ tool, Table.get? entries "tool" = some tool → ∃ tools, tool = .table tools ∧
      ∀ data, Table.get? tools "preferencer" = some data → DataFits data

/-! ### Reading one setting -/

section settings
variable {path : Option Path}

theorem styleOf_isOk_iff {v : Value} : (∃ style, styleOf path v = .ok style) ↔
    namesStyle v = true := by
  cases v with
  | text word =>
      simp only [styleOf, Value.isKey, namesStyle]
      cases Style.ofName? word <;> simp
  | _ => simp [styleOf, Value.isKey, namesStyle]

theorem styleOf_failsOnly_iff {v : Value} : FailsOnly Failure.isSetting (styleOf path v) ↔
    v.isKey = true ∧ v.isWritable = true := by
  have unknown : FailsOnly Failure.isSetting
      (.error (.ofSetting (.unknownStyle v) path) : Except Failure Style) ↔
        v.isWritable = true := by
    rw [failsOnly_error_iff, Failure.isSetting_ofSetting]
    simp [SettingFault.values]
  unfold styleOf
  by_cases key : v.isKey = true
  · simp only [key, Bool.not_true, Bool.false_eq_true, if_false, true_and]
    cases v with
    | text word =>
        cases named : Style.ofName? word with
        | none =>
            simp only [named]
            exact unknown
        | some style =>
            simp only [named]
            exact iff_of_true (failsOnly_ok style) (Value.isWritable_text word)
    | _ => exact unknown
  · simp [key, failsOnly_error_iff, Failure.isSetting]

/-- What comes of the setting for a type. -/
def typeOf (path : Option Path) (entry : Value × Value) :
    Except Failure (Value × StorageMethod) :=
  match methodOf entry.2 with
  | .ok method => .ok (entry.1, method)
  | .error fault => .error (.ofSetting (.badMethod entry.1 fault) path)

theorem isOk_typeOf (entry : Value × Value) :
    (typeOf path entry).isOk = (methodOf entry.2).isOk := by
  unfold typeOf
  cases methodOf entry.2 <;> rfl

theorem methodsOf_failsOnly_iff {methods : Table} :
    FailsOnly Failure.isSetting (methodsOf path methods) ↔
      ∀ entry ∈ methods.find? fun entry => !(methodOf entry.2).isOk,
        entry.1.isWritable = true := by
  show FailsOnly _ (methods.mapM (typeOf path)) ↔ _
  rw [failsOnly_mapM_iff]
  simp only [isOk_typeOf]
  refine forall₂_congr fun entry first => ?_
  have fails := List.find?_some first
  unfold typeOf
  cases read : methodOf entry.2 with
  | ok method =>
      rw [read] at fails
      cases fails
  | error fault =>
      simp [failsOnly_error_iff, Failure.isSetting_ofSetting, SettingFault.values]

/-! ### Reading all settings -/

theorem entry?_table (entries : Table) (key : String) :
    entry? (.table entries) key = .ok (Table.get? entries key) := by
  have holds := Table.holds_eq_isSome_get? entries key
  unfold entry?
  show (if Table.holds entries key = true then _ else _ : Except Misuse _) = _
  rw [holds]
  cases under : Table.get? entries key <;> simp <;> rfl

/-- The naming style that a table sets, or the usual one. -/
def styleIn (path : Option Path) (entries : Table) : Except Failure Style :=
  match Table.get? entries "naming" with
  | some v => styleOf path v
  | none => .ok .snake

/-- The storage methods that a table sets. -/
def typesIn (path : Option Path) (entries : Table) :
    Except Failure (List (Value × StorageMethod)) :=
  match (Table.get? entries "types").getD (.table []) with
  | .table methods => methodsOf path methods
  | _ => .error (.misused .notTable)

theorem ofValue_table (entries : Table) : ofValue (.table entries) path = do
    let style ← styleIn path entries
    let types ← typesIn path entries
    return { style, types,
             runtimeModule := (Table.get? entries "runtime_module").getD defaultRuntimeModule,
             classSuffix := (Table.get? entries "class_suffix").getD "Impl",
             header := (Table.get? entries "header").getD defaultHeader } := by
  have types : (Value.table entries).get? "types" = .ok (Table.get? entries "types") := rfl
  have stored : ∀ style runtimeModule classSuffix header,
      (match (Table.get? entries "types").getD (.table []) with
        | .table methods => do
          let types ← methodsOf path methods
          return { style, runtimeModule, classSuffix, header, types }
        | _ => throw (Failure.misused .notTable) : Except Failure Settings) =
      typesIn path entries >>= fun types =>
        return { style, runtimeModule, classSuffix, header, types } := by
    intro style runtimeModule classSuffix header
    unfold typesIn
    cases (Table.get? entries "types").getD (.table []) <;> rfl
  unfold ofValue styleIn
  simp only [entry?_table, types, lift_ok, ok_bind]
  cases Table.get? entries "naming" with
  | none => exact stored _ _ _ _
  | some v => exact bind_congr fun style => stored _ _ _ _

theorem styleIn_failsOnly_iff {entries : Table} :
    FailsOnly Failure.isSetting (styleIn path entries) ↔
      ∀ v, Table.get? entries "naming" = some v → v.isKey = true ∧ v.isWritable = true := by
  unfold styleIn
  cases Table.get? entries "naming" with
  | none => exact iff_of_true (failsOnly_ok _) nofun
  | some v => simp [styleOf_failsOnly_iff]

theorem styleIn_isOk_iff {entries : Table} : (∃ style, styleIn path entries = .ok style) ↔
    ∀ v, Table.get? entries "naming" = some v → namesStyle v = true := by
  unfold styleIn
  cases Table.get? entries "naming" with
  | none => exact iff_of_true ⟨_, rfl⟩ nofun
  | some v => simp [styleOf_isOk_iff]

theorem typesIn_failsOnly_iff {entries : Table} :
    FailsOnly Failure.isSetting (typesIn path entries) ↔
      ∀ v, Table.get? entries "types" = some v → ∃ methods, v = .table methods ∧
        ∀ entry ∈ methods.find? fun entry => !(methodOf entry.2).isOk,
          entry.1.isWritable = true := by
  unfold typesIn
  cases Table.get? entries "types" with
  | none => exact iff_of_true (failsOnly_ok _) nofun
  | some v =>
      cases v with
      | table methods => simp [methodsOf_failsOnly_iff]
      | _ => simp [failsOnly_error_iff, Failure.isSetting]

theorem entry?_other {data : Value} (other : ∀ entries, data ≠ .table entries) (key : String) :
    entry? data key = .ok none ∨ ∃ misuse, entry? data key = .error misuse := by
  unfold entry?
  cases data.contains key with
  | error misuse => exact Or.inr ⟨misuse, rfl⟩
  | ok present =>
      cases present with
      | false => exact Or.inl rfl
      | true =>
          cases data with
          | table entries => exact absurd rfl (other entries)
          | _ => exact Or.inr ⟨.notIndexable, rfl⟩

/-- Settings that are no table cannot be read, and the user is not told. -/
theorem ofValue_other {data : Value} (other : ∀ entries, data ≠ .table entries) :
    ∃ misuse, ofValue data path = .error (.misused misuse) := by
  have types : data.get? "types" = .error .notTable := by
    cases data with
    | table entries => exact absurd rfl (other entries)
    | _ => rfl
  unfold ofValue
  rcases entry?_other other "naming" with naming | ⟨misuse, naming⟩
  · rcases entry?_other other "runtime_module" with module | ⟨misuse, module⟩
    · rcases entry?_other other "class_suffix" with suffix | ⟨misuse, suffix⟩
      · rcases entry?_other other "header" with header | ⟨misuse, header⟩
        · rw [naming, module, suffix, header, types]
          exact ⟨.notTable, rfl⟩
        · rw [naming, module, suffix, header]
          exact ⟨misuse, rfl⟩
      · rw [naming, module, suffix]
        exact ⟨misuse, rfl⟩
    · rw [naming, module]
      exact ⟨misuse, rfl⟩
  · rw [naming]
    exact ⟨misuse, rfl⟩

theorem dataFits_table_iff {entries : Table} : DataFits (.table entries) ↔ EntriesFit entries := by
  constructor
  · rintro ⟨_, same, fits⟩
    cases same
    exact fits
  · intro fits
    exact ⟨entries, rfl, fits⟩

theorem ofValue_failsOnly_iff {data : Value} :
    FailsOnly Failure.isSetting (ofValue data path) ↔ DataFits data := by
  by_cases other : ∀ entries, data ≠ .table entries
  · obtain ⟨misuse, failed⟩ := ofValue_other other
    rw [failed, failsOnly_error_iff]
    refine iff_of_false Bool.false_ne_true ?_
    rintro ⟨entries, same, -⟩
    exact other entries same
  obtain ⟨entries, rfl⟩ : ∃ entries, data = .table entries := by simpa using other
  rw [dataFits_table_iff, ofValue_table, failsOnly_bind_iff]
  have made : ∀ settings : List (Value × StorageMethod) → Settings,
      FailsOnly Failure.isSetting (typesIn path entries >>= fun types => pure (settings types)) ↔
        FailsOnly Failure.isSetting (typesIn path entries) := by
    intro settings
    rw [failsOnly_bind_iff, and_iff_left]
    exact fun types _ => failsOnly_ok _
  simp only [made]
  constructor
  · rintro ⟨styled, typed⟩
    refine ⟨styleIn_failsOnly_iff.mp styled, fun known => ?_⟩
    obtain ⟨style, done⟩ := styleIn_isOk_iff.mpr known
    exact typesIn_failsOnly_iff.mp (typed style done)
  · intro fits
    refine ⟨styleIn_failsOnly_iff.mpr fits.naming, fun style done => ?_⟩
    exact typesIn_failsOnly_iff.mpr (fits.types (styleIn_isOk_iff.mp ⟨style, done⟩))

end settings

/-! ### Reading a file -/

section file
variable {w : Workspace} {p : Path} {content : Value}

theorem holds_of_document (read : document w p = .ok content) : w.holds p = .ok true := by
  obtain ⟨thing, at_path, read⟩ := bind_eq_ok_iff.mp read
  unfold Workspace.holds
  rw [at_path]
  cases thing with
  | none => cases read
  | some _ => rfl

/-- The settings that were found, or the usual ones. -/
def ofFound (p : Path) : Option Value → Except Failure Settings
  | some data => ofValue data (some p)
  | none => .ok {}

theorem load_of_document (read : document w p = .ok content) :
    load w p = (liftM (inDocument? content) : Except Failure _) >>= ofFound p := by
  unfold load
  rw [holds_of_document read, ok_bind, if_pos rfl, read, ok_bind]
  cases inDocument? content with
  | error misuse => rfl
  | ok data => cases data <;> rfl

theorem ofFound_failsOnly_iff {data : Option Value} :
    FailsOnly Failure.isSetting (ofFound p data) ↔ ∀ v, data = some v → DataFits v := by
  cases data with
  | none => exact iff_of_true (failsOnly_ok _) nofun
  | some v => simp [ofFound, ofValue_failsOnly_iff]

theorem inDocument?_table (entries : Table) :
    inDocument? (.table entries) = match Table.get? entries "preferencer" with
      | some data => .ok (some data)
      | none => ((Table.get? entries "tool").getD (.table [])).get? "preferencer" := by
  unfold inDocument? toolTable
  simp only [Value.get?]
  cases Table.get? entries "preferencer" <;> rfl

theorem documentFits_table_iff {entries : Table} : DocumentFits (.table entries) ↔
    match Table.get? entries "preferencer" with
    | some data => DataFits data
    | none => ∀ tool, Table.get? entries "tool" = some tool → ∃ tools, tool = .table tools ∧
        ∀ data, Table.get? tools "preferencer" = some data → DataFits data := by
  constructor
  · rintro ⟨_, same, fits⟩
    cases same
    exact fits
  · intro fits
    exact ⟨entries, rfl, fits⟩

theorem load_failsOnly_iff (read : document w p = .ok content) :
    FailsOnly Failure.isSetting (load w p) ↔ DocumentFits content := by
  have misused : ∀ misuse : Misuse, ¬FailsOnly Failure.isSetting
      (.error (.misused misuse) : Except Failure Settings) :=
    fun misuse => mt failsOnly_error_iff.mp Bool.false_ne_true
  rw [load_of_document read]
  cases content with
  | table entries =>
      rw [documentFits_table_iff, inDocument?_table]
      cases Table.get? entries "preferencer" with
      | some data => exact ofValue_failsOnly_iff
      | none =>
          cases Table.get? entries "tool" with
          | none => exact iff_of_true (failsOnly_ok _) nofun
          | some tool =>
              cases tool with
              | table tools =>
                  simp only [Option.some.injEq, forall_eq', Value.table.injEq]
                  rw [exists_eq_left']
                  exact ofFound_failsOnly_iff
              | _ =>
                  refine iff_of_false (misused .notTable) fun fits => ?_
                  obtain ⟨tools, same, -⟩ := fits _ rfl
                  cases same
  | _ =>
      refine iff_of_false (misused .notTable) ?_
      rintro ⟨entries, same, -⟩
      cases same

end file

/-! ### What comes of settings -/

/-- Settings are read or reported on exactly if they fit, and so are those of a document. -/
theorem load_reported {w : Workspace} {p : Path} {content : Value}
    (read : document w p = .ok content) :
    (FailsOnly Failure.isSetting (load w p) ↔ DocumentFits content) ∧
    ∀ data path, FailsOnly Failure.isSetting (ofValue data path) ↔ DataFits data :=
  ⟨load_failsOnly_iff read, fun _ _ => ofValue_failsOnly_iff⟩

def holding (text : String) : Workspace where
  root := .directory [(fileName, .file text.toUTF8)]
  directory := ⟨"/", []⟩

theorem document_holding {text : String} {content : Value}
    (read : (document (holding text) ⟨"", [fileName]⟩).toOption = some content) :
    document (holding text) ⟨"", [fileName]⟩ = .ok content := by
  cases found : document (holding text) ⟨"", [fileName]⟩ with
  | error failure =>
      rw [found] at read
      cases read
  | ok v =>
      rw [found] at read
      rw [Option.some.inj read]

/-- A number in the place of the naming style is reported on. -/
theorem load_reported_numberedStyle :
    let w := holding "[preferencer]\nnaming = 5\n"
    let content : Value := .table [("preferencer", .table [("naming", .int 5)])]
    document w ⟨"", [fileName]⟩ = .ok content ∧ DocumentFits content ∧
      FailsOnly Failure.isSetting (load w ⟨"", [fileName]⟩) := by
  intro w content
  have read : document w ⟨"", [fileName]⟩ = .ok content := document_holding (by decide +kernel)
  have placed : Table.get? [("preferencer", .table [("naming", .int 5)])] "preferencer" =
      some (.table [("naming", .int 5)]) := by decide +kernel
  have naming : Table.get? [("naming", .int 5)] "naming" = some (.int 5) := by decide +kernel
  have fits : DocumentFits content := by
    rw [documentFits_table_iff, placed]
    refine dataFits_table_iff.mpr ⟨fun v given => ?_, fun known => ?_⟩
    · obtain rfl := Option.some.inj (naming.symm.trans given)
      exact ⟨rfl, by decide +kernel⟩
    · cases known _ naming
  exact ⟨read, fits, (load_reported read).1.mpr fits⟩

/-- A list in the place of the naming style stops the reading without a word to the user. -/
theorem listed_style_unreported :
    let w := holding "[preferencer]\nnaming = []\n"
    let content : Value := .table [("preferencer", .table [("naming", .list [])])]
    document w ⟨"", [fileName]⟩ = .ok content ∧
      load w ⟨"", [fileName]⟩ = .error (.misused .notKey) ∧
      ¬FailsOnly Failure.isSetting (load w ⟨"", [fileName]⟩) := by
  intro w content
  have read : document w ⟨"", [fileName]⟩ = .ok content := document_holding (by decide +kernel)
  have placed : inDocument? content = .ok (some (.table [("naming", .list [])])) := by
    decide +kernel
  have naming : Table.get? [("naming", .list [])] "naming" = some (.list []) := by decide +kernel
  have failed : load w ⟨"", [fileName]⟩ = .error (.misused .notKey) := by
    rw [load_of_document read, placed, lift_ok, ok_bind, ofFound, ofValue_table, styleIn, naming]
    rfl
  refine ⟨read, failed, ?_⟩
  rw [failed, failsOnly_error_iff]
  exact Bool.false_ne_true

end Settings

end Preferences

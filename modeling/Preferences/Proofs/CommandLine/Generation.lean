import Preferences.CommandLine.Run
import Preferences.Proofs.Description.Documented
import Preferences.Proofs.Generation.Reports

/-! # What the command writes

A request to generate reads settings and a document (`Reads`).  It then writes the module of those
selected classes that are generated, and its exit code tells whether all of them were
(`generate_exact`).  What is left besides the log depends on the settings and on the selected
declarations only (`shown_generate`), so a class that is not selected can be changed at will. -/

namespace Preferences.CommandLine

open Description (Documented declarationOf listed)

/-- The request leads to the settings and to the document, and the document describes the
declarations. -/
structure Reads (w : Workspace) (request : GenerateRequest) (config : Settings) (document : Value)
    (ds : List Declaration) : Prop where
  settings : ∃ file, settingsFile w (Path.ofText request.description).parent request.settings =
    .ok file ∧ settingsIn w file = .ok config
  content : ∀ malformed, w.document malformed (Path.ofText request.description) = .ok document
  declared : Description.declarations (withStyle request.style config)
    (some (Path.ofText request.description)) document = .ok ds

/-- What a run leaves besides its log: the exit code and what it has written. -/
def Outcome.shown (o : Outcome) : Nat × String := (o.code, o.output)

/-- The tables of a class are the same, or neither describes a class that is selected. -/
def SameOrUnselected (settings : Settings) (file : Option Path) (className : Option String)
    (before after : Value) : Prop :=
  before = after ∨ ∀ data ∈ [before, after], ∀ d,
    declarationOf settings file data = .ok d → select className [d] = []

/-! ### Selected declarations -/

section selected
variable {settings : Settings} {file : Option Path} {className : Option String}
  {ds : List Declaration}

theorem select_cons (d : Declaration) :
    select className (d :: ds) = select className [d] ++ select className ds := by
  cases className with
  | none => rfl
  | some name =>
      unfold select
      exact List.filter_append [d] ds

theorem mem_of_mem_select {d : Declaration} (h : d ∈ select className ds) : d ∈ ds := by
  cases className with
  | none => exact h
  | some name => exact List.mem_of_mem_filter h

theorem select_some (name : String) :
    select (some name) ds = ds.filter fun d => d.name = .text name := by
  unfold select
  exact congrArg (List.filter · ds) (funext fun d => Value.same_eq_decide rfl)

/-- Documents whose tables differ only in classes that are not selected select the same. -/
theorem select_eq_of_same {tables tables' : List Value} {ds' : List Declaration}
    (same : List.Forall₂ (SameOrUnselected settings file className) tables tables')
    (read : List.Forall₂ (fun data d => declarationOf settings file data = .ok d) tables ds)
    (read' : List.Forall₂ (fun data d => declarationOf settings file data = .ok d) tables' ds') :
    select className ds = select className ds' := by
  induction same generalizing ds ds' with
  | nil =>
      obtain rfl := List.forall₂_nil_left_iff.mp read
      obtain rfl := List.forall₂_nil_left_iff.mp read'
      rfl
  | cons first _ ih =>
      obtain ⟨d, later, made, rest, rfl⟩ := List.forall₂_cons_left_iff.mp read
      obtain ⟨d', later', made', rest', rfl⟩ := List.forall₂_cons_left_iff.mp read'
      rw [select_cons d, select_cons d', ih rest rest']
      rcases first with rfl | unselected
      · obtain rfl := Except.ok.inj (made.symm.trans made')
        rfl
      · rw [unselected _ (by simp) d made, unselected _ (by simp) d' made']

end selected

/-! ### Writing a module -/

section writing
variable {settings : Settings} {ds : List Declaration} {g : Generator}

/-- What is written does not depend on what was logged before. -/
theorem shown_writeModule (log : List Entry) : (writeModule settings ds log).map Outcome.shown =
    (writeModule settings ds []).map Outcome.shown := by
  unfold writeModule
  cases Generator.ofSettings settings with
  | error misuse => rfl
  | ok g =>
      simp only [lift_ok, ok_bind]
      cases g.generateAll ds with
      | error failure => rfl
      | ok report =>
          simp only [ok_bind]
          cases report.types.isEmpty with
          | true => cases report.ok <;> rfl
          | false =>
              cases renderModule settings.header report.types with
              | error misuse => rfl
              | ok output => cases report.ok <;> rfl

theorem writeModule_of_report {report : Report} {output : String}
    (made : Generator.ofSettings settings = .ok g) (reported : g.generateAll ds = .ok report)
    (rendered : renderModule settings.header report.types = .ok output) (log : List Entry) :
    ∃ o, writeModule settings ds log = .ok o ∧ o.code = (if report.ok then 0 else 1) ∧
      o.output = if report.types.isEmpty then "" else output := by
  unfold writeModule
  simp only [made, reported, rendered, lift_ok, ok_bind]
  cases report.ok <;> cases report.types.isEmpty <;> exact ⟨_, rfl, rfl, rfl⟩

end writing

/-! ### What becomes of a selection -/

/-- The outcome is what the selected declarations ask for: the module of those classes that are
generated, if there are any, and the exit code that tells whether all of them are. -/
structure Writes (g : Generator) (header : Value) (selected : List Declaration) (o : Outcome) :
    Prop where
  nothing : g.generated selected = [] → o.output = ""
  written : g.generated selected ≠ [] → renderModule header (g.generated selected) = .ok o.output
  code : o.code = 0 ∨ o.code = 1
  code_eq_zero_iff : o.code = 0 ↔ ∀ d ∈ selected, ∃ c, g.generate d = .ok c

section selection
variable {settings : Settings} {ds : List Declaration} {g : Generator}
variable (typed : settings.IsTyped) (made : Generator.ofSettings settings = .ok g)
  (kinds : ∀ d ∈ ds, d.IsTyped)
include typed made kinds

theorem writeModule_of_reportable (reportable : ∀ d ∈ ds, g.Reportable d) (log : List Entry) :
    ∃ o, writeModule settings ds log = .ok o ∧ Writes g settings.header ds o := by
  have stored := Generator.isTyped_of_ofSettings typed made
  obtain ⟨report, reported, types, diagnosed⟩ :=
    Generator.generateAll_of_reportable kinds stored reportable
  have runtime : g.runtimeModule.isText = true := by
    rw [(Generator.storageTable_of_ofSettings made).2]
    exact typed.runtimeModule
  obtain ⟨output, rendered⟩ := Generator.renderModule_isOk typed.header runtime kinds
  obtain ⟨o, done, code, out⟩ :=
    writeModule_of_report made reported (by rw [types]; exact rendered) log
  simp only [types, List.isEmpty_iff] at out
  refine ⟨o, done, fun none => by rw [out, if_pos none], fun some => ?_, ?_, ?_⟩
  · rw [out, if_neg some]
    exact rendered
  · rw [code]
    split_ifs <;> simp
  · rw [code, ← Generator.ok_iff_of_diagnosed diagnosed]
    split_ifs with all <;> simp [all]

theorem writeModule_of_unreportable (long : ¬∀ d ∈ ds, g.Reportable d) (log : List Entry) :
    writeModule settings ds log = .error (.misused .unwritable) := by
  have stopped := Generator.generateAll_of_unreportable kinds
    (Generator.isTyped_of_ofSettings typed made) long
  simp only [writeModule, made, stopped, lift_ok, ok_bind]
  rfl

end selection

/-! ### Running the command -/

section run
variable {w : Workspace} {request : GenerateRequest} {config : Settings} {document : Value}
  {ds : List Declaration}

/-- The command writes the module of the selected declarations, unless a class is named and nothing
is selected. -/
theorem generate_eq (reads : Reads w request config document ds) :
    ∃ log, generate w request =
      if request.className.isSome = true ∧ select request.className ds = [] then
        .ok { code := 1, log := log }
      else writeModule (withStyle request.style config) (select request.className ds) log := by
  obtain ⟨⟨file, found, loaded⟩, content, read⟩ := reads
  have declared : declarationsFor w request file = .ok (withStyle request.style config, ds) := by
    simp only [declarationsFor, loaded, ok_bind, Description.load, content, read]
    rfl
  simp only [generate, found, declared]
  cases request.className with
  | none => exact ⟨_, rfl⟩
  | some name => cases select (some name) ds <;> exact ⟨_, rfl⟩

/-- What is left besides the log comes from the settings and the selected declarations. -/
theorem shown_generate (reads : Reads w request config document ds) :
    (generate w request).map Outcome.shown =
      if request.className.isSome = true ∧ select request.className ds = [] then .ok (1, "")
      else (writeModule (withStyle request.style config) (select request.className ds) []).map
        Outcome.shown := by
  obtain ⟨log, run⟩ := generate_eq reads
  rw [run]
  split_ifs
  · rfl
  · exact shown_writeModule log

/-- **The command writes what the selected classes ask for, and tells whether all were generated.**
If a class is named that is not described, nothing is written and the exit code is one.  Otherwise
the module of all selected classes that are generated is written, in the order of the document, and
the exit code is zero exactly if all of them are; unless one of them is rejected on a line whose
number is too long to be written, which stops the run before anything is written.  In all of these
cases a class that is selected neither before nor after a change can be changed without any effect
on what is written and on the exit code. -/
theorem generate_exact (reads : Reads w request config document ds) (typed : config.IsTyped)
    (documented : Documented document) :
    (request.className = none → select request.className ds = ds) ∧
    (∀ name, request.className = some name →
      select request.className ds = ds.filter fun d => d.name = .text name) ∧
    ∃ g, Generator.ofSettings (withStyle request.style config) = .ok g ∧
      (request.className.isSome = true → select request.className ds = [] →
        ∃ o, generate w request = .ok o ∧ o.code = 1 ∧ o.output = "") ∧
      (request.className = none ∨ select request.className ds ≠ [] →
        ((∀ d ∈ select request.className ds, g.Reportable d) →
          ∃ o, generate w request = .ok o ∧
            Writes g config.header (select request.className ds) o) ∧
        ((¬∀ d ∈ select request.className ds, g.Reportable d) →
          generate w request = .error (.misused .unwritable))) ∧
      ∀ w' document' ds', Reads w' request config document' ds' →
        List.Forall₂ (SameOrUnselected (withStyle request.style config)
          (some (Path.ofText request.description)) request.className)
          (listed "class" document) (listed "class" document') →
        (generate w' request).map Outcome.shown = (generate w request).map Outcome.shown := by
  have typed : (withStyle request.style config).IsTyped :=
    ⟨typed.runtimeModule, typed.classSuffix, typed.header, typed.types⟩
  obtain ⟨g, made⟩ := Generator.exists_ofSettings typed
  have kinds : ∀ d ∈ select request.className ds, d.IsTyped := fun d hd =>
    Description.isTyped_of_documented documented reads.declared d (mem_of_mem_select hd)
  obtain ⟨log, run⟩ := generate_eq reads
  refine ⟨fun unnamed => by rw [unnamed]; rfl, fun name named => by rw [named, select_some],
    g, made, fun named bare => ?_, fun asked => ?_, fun w' document' ds' reads' same => ?_⟩
  · rw [run, if_pos ⟨named, bare⟩]
    exact ⟨_, rfl, rfl, rfl⟩
  · have goes : ¬(request.className.isSome = true ∧ select request.className ds = []) := by
      rintro ⟨named, bare⟩
      rcases asked with unnamed | some
      · simp [unnamed] at named
      · exact some bare
    rw [run, if_neg goes]
    exact ⟨fun reportable => writeModule_of_reportable typed made kinds reportable log,
      fun long => writeModule_of_unreportable typed made kinds long log⟩
  · rw [shown_generate reads, shown_generate reads', select_eq_of_same same
      (Description.declarations_ok reads.declared) (Description.declarations_ok reads'.declared)]

end run

/-! ### A class that is generated and one that is not -/

/-- A directory whose only file is a description. -/
def describing (text : List Char) : Workspace where
  root := .directory [("m.toml", .file (String.ofList text).toUTF8)]
  directory := ⟨"/", []⟩

theorem document_describing {text : List Char} {content : Value}
    (read : (Toml.read text).toOption = some content) (malformed : Failure) :
    (describing text).document malformed ⟨"", ["m.toml"]⟩ = .ok content := by
  have read : Toml.read text = .ok content := by
    cases done : Toml.read text with
    | error fault =>
        rw [done] at read
        cases read
    | ok v =>
        rw [done] at read
        rw [Option.some.inj read]
  have found : (describing text).find ⟨"", ["m.toml"]⟩ =
      .ok (some (.file (String.ofList text).toUTF8)) := rfl
  -- The bytes stay unread: whatever the text, decoding gives it back.
  have decoded : String.fromUTF8? (String.ofList text).toUTF8 = some (String.ofList text) :=
    dif_pos (String.ofList text).isValidUTF8
  rw [Workspace.document, found, ok_bind]
  simp only [decoded, String.toList_ofList, read]
  rfl

/-- A description of two classes: one holds a number, the other one bytes, on a line. -/
def mixedText (line : List Char) : List Char :=
  "[[class]]\nsource = \"app:Base\"\n\n[[class.preference]]\nname = \"age\"\n".toList
    ++ ("type = \"int\"\nline = 5\n\n[[class]]\nsource = \"app:Raw\"\n\n".toList
    ++ ("[[class.preference]]\nname = \"age\"\ntype = \"bytes\"\nline = ".toList
    ++ (line ++ ['\n'])))

/-- The table of a preference of a type. -/
def ageTable (valueType : String) (line : Int) : Table :=
  [("name", "age"), ("type", valueType), ("line", .int line)]

def mixedDocument (line : Int) : Value :=
  .table [("class", .list ([Description.classTable "app:Base" (ageTable "int" 5),
    Description.classTable "app:Raw" (ageTable "bytes" line)].map .table))]

def storing (source name valueType : String) (line : Int) : Declaration where
  source := ⟨"app", source⟩
  name := name
  preferences := [{
    name := "age", valueType := valueType, getter := { name := "get_age" }
    location := some ⟨some ⟨"", ["m.toml"]⟩, .int line⟩ }]
  isInterface := false
  store := .default
  hook := none
  location := some ⟨some ⟨"", ["m.toml"]⟩, .null⟩
  source_module_ne := show "app" ≠ "" by decide
  preferences_ne := List.cons_ne_nil _ _

def mixed (line : Int) : List Declaration :=
  [storing "Base" "BaseImpl" "int" 5, storing "Raw" "RawImpl" "bytes" line]

section mixed
variable (line : Int)

theorem read_mixed : Description.declarations {} (some ⟨"", ["m.toml"]⟩) (mixedDocument line) =
    .ok (mixed line) := by
  have base : Description.typeRefOf "app:Base" = .ok ⟨"app", "Base"⟩ := rfl
  have raw : Description.typeRefOf "app:Raw" = .ok ⟨"app", "Raw"⟩ := rfl
  have suffix := Description.suffixOf_twin "age" (by simp)
  simp [Description.declarations, declarationOf, Description.draftOf, mixedDocument, ageTable,
    Description.classTable, ok_bind, lift_ok, Description.lift_locationOf, Description.lift_entry,
    Description.found, Description.placeOf, Description.flagOf, Table.get?, Value.get?, Value.same,
    Value.sameAtom, Value.elements, Description.sourceOf, base, raw, Description.preferenceOf,
    Value.isTruthy, Description.getterNameOf, suffix, Except.map]
  rfl

theorem ageTable_documented (valueType : String) :
    Description.PreferenceDocumented (ageTable valueType line) := by
  constructor <;> simp [ageTable, Description.HasText, Description.NamesByText, Description.found,
    Table.get?, Value.same, Value.sameAtom, Value.isText]

theorem classTable_documented {source : String} {preference : Table}
    (documented : Description.PreferenceDocumented preference) :
    Description.ClassDocumented (Description.classTable source preference) where
  texts := by
    simp [Description.classTable, Description.HasText, Table.get?, Value.same, Value.sameAtom]
  hook := by
    simp [Description.classTable, Description.NamesByText, Description.found, Table.get?,
      Value.same, Value.sameAtom]
  preferences :=
    Description.listsTables_single (Description.get?_classTable_preference _ _) documented

theorem mixed_documented : Documented (mixedDocument line) := by
  have under : ∀ v, Table.get? [("class", v)] "class" = some v := by
    simp [Table.get?, Value.same, Value.sameAtom]
  intro v given
  obtain rfl := Option.some.inj ((under _).symm.trans given)
  refine ⟨_, rfl, ?_⟩
  rw [List.forall_mem_cons, List.forall_mem_singleton]
  exact ⟨classTable_documented (ageTable_documented 5 "int"),
    classTable_documented (ageTable_documented line "bytes")⟩

theorem listed_mixed : listed "class" (mixedDocument line) =
    [Description.classTable "app:Base" (ageTable "int" 5),
      Description.classTable "app:Raw" (ageTable "bytes" line)].map .table := by
  simp [listed, mixedDocument, Table.get?, Value.same, Value.sameAtom, Value.elements]

theorem path_mixed : Path.ofText "m.toml" = ⟨"", ["m.toml"]⟩ := by decide +kernel

theorem reads_mixed {digits : List Char} (className : Option String)
    (read : (Toml.read (mixedText digits)).toOption = some (mixedDocument line)) :
    Reads (describing (mixedText digits)) { description := "m.toml", className := className } {}
      (mixedDocument line) (mixed line) := by
  refine ⟨⟨none, ?_, rfl⟩, ?_, ?_⟩
  · show Settings.find _ (Path.ofText "m.toml").parent = _
    rw [path_mixed]
    rfl
  · show ∀ malformed, Workspace.document _ malformed (Path.ofText "m.toml") = _
    rw [path_mixed]
    exact document_describing read
  · show Description.declarations {} (some (Path.ofText "m.toml")) _ = _
    rw [path_mixed]
    exact read_mixed line

theorem base_isOk :
    ∃ c, ({} : Generator).generate (storing "Base" "BaseImpl" "int" 5) = .ok c :=
  exists_ok_of_isSome (by decide +kernel)

theorem raw_unsupported :
    ({} : Generator).Unsupported (storing "Raw" "RawImpl" "bytes" line)
      ⟨.unsupportedType "bytes" "RawImpl", some ⟨some ⟨"", ["m.toml"]⟩, .int line⟩⟩ :=
  ⟨[], _, [], "bytes", rfl, by simp, rfl, by decide +kernel, rfl⟩

theorem raw_settled (short : (Value.int line).isWritable = true) :
    ({} : Generator).Settled (storing "Raw" "RawImpl" "bytes" line) := by
  have rejected := Generator.generate_of_unsupported (raw_unsupported line)
  rw [ofRejection_eq_rejected_iff.mpr ⟨by simp [Rejection.values, Reason.values, short], rfl⟩]
    at rejected
  exact Or.inr ⟨_, rejected⟩

theorem raw_not_isOk :
    ¬∃ c, ({} : Generator).generate (storing "Raw" "RawImpl" "bytes" line) = .ok c := by
  rw [Generator.generate_of_unsupported (raw_unsupported line)]
  nofun

theorem select_mixed : select (some "BaseImpl") (mixed line) =
    [storing "Base" "BaseImpl" "int" 5] := by
  rw [select_some]
  simp [mixed, storing]

theorem generated_mixed : ({} : Generator).generated (mixed line) ≠ [] := by
  obtain ⟨c, made⟩ := base_isOk
  simp [Generator.generated, mixed, made, Except.toOption]

/-- Where the other class is asked for, the one with bytes may stand on any line. -/
theorem same_mixed (other : Int) : List.Forall₂
    (SameOrUnselected {} (some (Path.ofText "m.toml")) (some "BaseImpl"))
    (listed "class" (mixedDocument line)) (listed "class" (mixedDocument other)) := by
  have raw : ∀ n d, declarationOf {} (some ⟨"", ["m.toml"]⟩)
      (.table (Description.classTable "app:Raw" (ageTable "bytes" n))) = .ok d →
      select (some "BaseImpl") [d] = [] := by
    intro n d read
    have each := Description.declarations_ok (read_mixed n)
    rw [listed_mixed] at each
    obtain ⟨-, each⟩ := List.forall₂_cons.mp each
    obtain rfl := Except.ok.inj (read.symm.trans (List.forall₂_cons.mp each).1)
    rw [select_some]
    simp [storing]
  rw [listed_mixed, listed_mixed, path_mixed]
  refine .cons (Or.inl rfl) (.cons (Or.inr ?_) .nil)
  rw [List.forall_mem_cons, List.forall_mem_singleton]
  exact ⟨raw line, raw other⟩

end mixed

/-- The digits of a number that is too long to be written. -/
def longDigits : List Char := '0' :: 'x' :: '1' :: List.replicate 3600 '0'

/-- The number that they write. -/
def longLine : Int := .ofNat (Nat.pow 16 3600)

theorem read_seven : (Toml.read (mixedText ['7'])).toOption = some (mixedDocument 7) := by
  decide +kernel

theorem read_longDigits :
    (Toml.read (mixedText longDigits)).toOption = some (mixedDocument longLine) := by
  decide +kernel

/-- Of the two classes, the one with bytes is not generated, so the exit code is one; where only the
other one is asked for, it is zero, and remains so on any other line of the document. -/
theorem generate_exact_mixed :
    (∃ o, generate (describing (mixedText ['7'])) { description := "m.toml" } = .ok o ∧
      o.code = 1 ∧ renderModule defaultHeader (({} : Generator).generated (mixed 7)) =
        .ok o.output) ∧
    ∃ o, generate (describing (mixedText ['7']))
        { description := "m.toml", className := some "BaseImpl" } = .ok o ∧
      o.code = 0 ∧ (generate (describing (mixedText longDigits))
        { description := "m.toml", className := some "BaseImpl" }).map Outcome.shown =
          .ok o.shown := by
  have typed : ({} : Settings).IsTyped := ⟨rfl, rfl, rfl, nofun⟩
  have default : Generator.ofSettings (withStyle none {}) = .ok {} := rfl
  have base : ({} : Generator).Reportable (storing "Base" "BaseImpl" "int" 5) :=
    Generator.reportable_of_settled (Or.inl base_isOk)
  have raw : ({} : Generator).Reportable (storing "Raw" "RawImpl" "bytes" 7) :=
    Generator.reportable_of_settled (raw_settled 7 (by decide +kernel))
  constructor
  · obtain ⟨-, -, g, made, -, goes, -⟩ :=
      generate_exact (reads_mixed 7 none read_seven) typed (mixed_documented 7)
    obtain rfl := Except.ok.inj (made.symm.trans default)
    have reportable : ∀ d ∈ select none (mixed 7), ({} : Generator).Reportable d :=
      List.forall_mem_cons.mpr ⟨base, List.forall_mem_singleton.mpr raw⟩
    obtain ⟨o, done, writes⟩ := (goes (Or.inl rfl)).1 reportable
    refine ⟨o, done, writes.code.resolve_left fun zero => ?_, writes.written (generated_mixed 7)⟩
    exact raw_not_isOk 7 (writes.code_eq_zero_iff.mp zero _ (by simp [select, mixed]))
  · obtain ⟨-, -, g, made, -, goes, runs⟩ :=
      generate_exact (reads_mixed 7 (some "BaseImpl") read_seven) typed (mixed_documented 7)
    obtain rfl := Except.ok.inj (made.symm.trans default)
    have selected : select (some "BaseImpl") (mixed 7) ≠ [] := by
      rw [select_mixed]
      exact List.cons_ne_nil _ _
    have reportable : ∀ d ∈ select (some "BaseImpl") (mixed 7), ({} : Generator).Reportable d := by
      rw [select_mixed]
      exact List.forall_mem_singleton.mpr base
    obtain ⟨o, done, writes⟩ := (goes (Or.inr selected)).1 reportable
    refine ⟨o, done, writes.code_eq_zero_iff.mpr ?_, ?_⟩
    · show ∀ d ∈ select (some "BaseImpl") (mixed 7), _
      rw [select_mixed]
      exact List.forall_mem_singleton.mpr base_isOk
    · rw [runs _ _ _ (reads_mixed longLine (some "BaseImpl") read_longDigits)
        (same_mixed 7 longLine), done]
      rfl

/-- Where the class with bytes is on a line whose number is too long to be written, nothing comes
out, not even the other class. -/
theorem generate_longDigits :
    Reads (describing (mixedText longDigits)) { description := "m.toml" } {}
      (mixedDocument longLine) (mixed longLine) ∧
    ({} : Settings).IsTyped ∧ Documented (mixedDocument longLine) ∧
    Generator.ofSettings {} = .ok {} ∧
    (∃ c, ({} : Generator).generate (storing "Base" "BaseImpl" "int" 5) = .ok c) ∧
    (¬∃ c, ({} : Generator).generate (storing "Raw" "RawImpl" "bytes" longLine) = .ok c) ∧
    generate (describing (mixedText longDigits)) { description := "m.toml" } =
      .error (.misused .unwritable) := by
  have reads := reads_mixed longLine none read_longDigits
  have typed : ({} : Settings).IsTyped := ⟨rfl, rfl, rfl, nofun⟩
  have documented := mixed_documented longLine
  have unwritable : (Value.int longLine).isWritable = false := by decide +kernel
  have long : ¬∀ d ∈ mixed longLine, ({} : Generator).Reportable d := by
    intro reportable
    have last := reportable _ (List.mem_cons_of_mem _ List.mem_cons_self)
      _ (Or.inl (raw_unsupported longLine)) _ rfl
    exact Bool.false_ne_true (unwritable.symm.trans last)
  obtain ⟨log, run⟩ := generate_eq reads
  have unnamed : ¬((none : Option String).isSome = true ∧
    select none (mixed longLine) = []) := nofun
  refine ⟨reads, typed, documented, rfl, base_isOk, raw_not_isOk _, ?_⟩
  rw [run, if_neg unnamed]
  exact writeModule_of_unreportable typed rfl
    (Description.isTyped_of_documented documented reads.declared) long log

end Preferences.CommandLine

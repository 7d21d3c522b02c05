import Preferences.Proofs.Description.Flaws

/-! # Which descriptions are reported on

The reading of a description is reported on if it ends with declarations or with a rejection, which
users are told about.  That is so exactly if the first flaw of the document is a rejection
(`declarations_reported`).  It is enough that the classes and the preferences are lists of tables,
that a source and a name that others are derived from are texts, and that no number is too long to
be written (`DocumentFits`); all other entries may be of any kind. -/

namespace Preferences

/-- Whether a declaration is rejected. -/
def Failure.isRejection : Failure → Bool
  | .rejected _ => true
  | _ => false

/-! ### Parts of writable values -/

namespace Value

theorem isWritable_of_mem {items : List Value} (h : (list items).isWritable = true) {v : Value}
    (mem : v ∈ items) : v.isWritable = true := by
  rw [isWritable] at h
  induction items with
  | nil => cases mem
  | cons first rest ih =>
      rw [areWritable, Bool.and_eq_true] at h
      rcases List.mem_cons.mp mem with rfl | mem
      · exact h.1
      · exact ih h.2 mem

theorem isWritable_of_get? {entries : Table} (h : (table entries).isWritable = true)
    {key v : Value} (under : Table.get? entries key = some v) : v.isWritable = true := by
  rw [isWritable] at h
  obtain ⟨⟨other, v⟩, found, rfl⟩ := Option.map_eq_some_iff.mp under
  have mem := List.mem_of_find?_eq_some found
  clear found under
  induction entries with
  | nil => cases mem
  | cons first rest ih =>
      rw [areWritableEntries, Bool.and_eq_true, Bool.and_eq_true] at h
      rcases List.mem_cons.mp mem with rfl | mem
      · exact h.1.2
      · exact ih h.2 mem

theorem isWritable_getD {entries : Table} (h : (table entries).isWritable = true) (key : Value)
    {alternative : Value} (other : alternative.isWritable = true) :
    ((Table.get? entries key).getD alternative).isWritable = true := by
  cases under : Table.get? entries key with
  | none => exact other
  | some v => exact isWritable_of_get? h under

end Value

namespace Description

/-! ### Descriptions of the right kinds -/

/-- Under the key there is a list of tables, each of which fits, or nothing. -/
def ListsTables (fits : Table → Prop) (entries : Table) (key : String) : Prop :=
  ∀ v, Table.get? entries key = some v → ∃ tables : List Table,
    v = .list (tables.map Value.table) ∧ ∀ t ∈ tables, fits t

/-- The name of the preference is a text unless its getter has a name of its own. -/
def PreferenceFits (entries : Table) : Prop :=
  ∀ name, Table.get? entries "name" = some name →
    (found entries "getter").isTruthy = true ∨ name.isText = true

/-- The source of the class is a text, and its preferences are a list of tables that fit. -/
structure ClassFits (entries : Table) : Prop where
  source : ∀ v, Table.get? entries "source" = some v → v.isText = true
  preferences : ListsTables PreferenceFits entries "preference"

/-- The classes are a list of tables that fit, and no number is too long to be written. -/
structure DocumentFits (entries : Table) : Prop where
  classes : ListsTables ClassFits entries "class"
  writable : (Value.table entries).isWritable = true

/-! ### Flaws that are rejections -/

def AllRejected (flaws : List Failure) : Prop := ∀ flaw ∈ flaws, flaw.isRejection = true

theorem allRejected_nil : AllRejected [] := nofun

theorem AllRejected.append {flaws more : List Failure} (h : AllRejected flaws)
    (later : AllRejected more) : AllRejected (flaws ++ more) :=
  List.forall_mem_append.mpr ⟨h, later⟩

section flaws
variable {settings : Settings} {file : Option Path} {location : Location} {entries : Table}

theorem allRejected_rejected (line : location.line.isWritable = true) {reason : Reason}
    (values : reason.values.all Value.isWritable = true) :
    AllRejected [rejected location reason] := by
  have all : (Rejection.values ⟨reason, some location⟩).all Value.isWritable = true := by
    simp [Rejection.values, values, line]
  rw [rejected, Failure.ofRejection, if_pos all]
  simp [AllRejected, Failure.isRejection]

theorem allRejected_visibilityFlaws (line : location.line.isWritable = true) {value : Value}
    (writable : value.isWritable = true) : AllRejected (visibilityFlaws location value) := by
  unfold visibilityFlaws
  split_ifs
  · exact allRejected_nil
  · exact allRejected_rejected line (by simp [Reason.values, writable])

theorem allRejected_missingFlaws (line : location.line.isWritable = true) (key : String) :
    AllRejected (missingFlaws location entries key) := by
  unfold missingFlaws
  split_ifs
  · exact allRejected_nil
  · exact allRejected_rejected line rfl

theorem allRejected_getterFlaws (fits : PreferenceFits entries) :
    AllRejected (getterFlaws settings entries) := by
  unfold getterFlaws
  cases named : Table.get? entries "name" with
  | none => exact allRejected_nil
  | some name =>
      simp only [if_pos (Bool.or_eq_true_iff.mpr (fits name named))]
      exact allRejected_nil

theorem allRejected_defaultFlaws {value : Value} (writable : value.isWritable = true) :
    AllRejected (defaultFlaws value) := by
  rw [defaultFlaws, if_pos writable]
  exact allRejected_nil

theorem allRejected_mutatorFlaws (line : location.line.isWritable = true) {value : Value}
    (writable : value.isWritable = true) : AllRejected (mutatorFlaws location value) := by
  have bad : AllRejected [rejected location (.badMethod value)] :=
    allRejected_rejected line (by simp [Reason.values, writable])
  cases value with
  | null | bool b | text s => exact allRejected_nil
  | table entries =>
      rw [mutatorFlaws]
      split_ifs
      · exact allRejected_visibilityFlaws line
          (Value.isWritable_getD writable _ (Value.isWritable_text _))
      · exact bad
  | _ => exact bad

theorem allRejected_flagFlaws (line : location.line.isWritable = true)
    (writable : (Value.table entries).isWritable = true) (key : String) :
    AllRejected (flagFlaws location entries key) := by
  have entry : ((Table.get? entries key).getD (.bool false)).isWritable = true :=
    Value.isWritable_getD writable key rfl
  unfold flagFlaws
  split
  · exact allRejected_nil
  · exact allRejected_rejected line (by simp [Reason.values, entry])

theorem allRejected_hookFlaws (line : location.line.isWritable = true) {value : Value}
    (writable : value.isWritable = true) : AllRejected (hookFlaws location value) := by
  have bad : AllRejected [rejected location (.badHook value)] :=
    allRejected_rejected line (by simp [Reason.values, writable])
  cases value with
  | null | text s => exact allRejected_nil
  | table entries =>
      rw [hookFlaws]
      split_ifs
      · exact allRejected_flagFlaws line writable _
      · exact bad
  | _ => exact bad

theorem isWritable_found (writable : (Value.table entries).isWritable = true) (key : String) :
    (found entries key).isWritable = true := Value.isWritable_getD writable key rfl

theorem allRejected_preferenceFlaws (fits : PreferenceFits entries)
    (writable : (Value.table entries).isWritable = true) :
    AllRejected (preferenceFlaws settings file (.table entries)) := by
  have line : (placeOf file entries).line.isWritable = true := isWritable_found writable "line"
  have word : ∀ (key word : String),
      ((Table.get? entries key).getD (.text word)).isWritable = true :=
    fun key word => Value.isWritable_getD writable key (Value.isWritable_text word)
  refine (allRejected_missingFlaws line "name").append ?_
  refine (allRejected_missingFlaws line "type").append ?_
  refine (allRejected_getterFlaws fits).append ?_
  refine (allRejected_visibilityFlaws line (word "visibility" "public")).append ?_
  refine (allRejected_defaultFlaws (word "default" "")).append ?_
  refine (allRejected_mutatorFlaws line (isWritable_found writable "setter")).append ?_
  exact allRejected_mutatorFlaws line (isWritable_found writable "remover")

/-- A list of tables that fit has no flaws but those of its tables. -/
theorem allRejected_elementFlaws {fits : Table → Prop} {flawsOf : Value → List Failure}
    {key : String} (lists : ListsTables fits entries key)
    (writable : (Value.table entries).isWritable = true)
    (each : ∀ t, fits t → (Value.table t).isWritable = true → AllRejected (flawsOf (.table t))) :
    AllRejected (elementFlaws flawsOf ((Table.get? entries key).getD (.list []))) := by
  cases under : Table.get? entries key with
  | none => exact allRejected_nil
  | some v =>
      obtain ⟨tables, rfl, fit⟩ := lists v under
      have parts := Value.isWritable_of_get? writable under
      show AllRejected ((tables.map Value.table).flatMap flawsOf)
      intro flaw mem
      obtain ⟨_, listed, mem⟩ := List.mem_flatMap.mp mem
      obtain ⟨t, ht, rfl⟩ := List.mem_map.mp listed
      exact each t (fit t ht) (Value.isWritable_of_mem parts listed) flaw mem

theorem allRejected_draftFlaws (writable : (Value.table entries).isWritable = true) {name : Value}
    (named : name.isWritable = true) : AllRejected (draftFlaws file entries name) := by
  have line : (placeOf file entries).line.isWritable = true := isWritable_found writable "line"
  unfold draftFlaws
  split_ifs
  · exact allRejected_rejected line (by simp [Reason.values, named])
  · exact allRejected_rejected line (by simp [Reason.values, named])
  · exact allRejected_nil

theorem classNameOf_isOk (suffix : settings.classSuffix.isText = true) (source : TypeRef)
    {given : Value} (writable : given.isWritable = true) :
    ∃ name, classNameOf settings source given = .ok name ∧ name.isWritable = true := by
  unfold classNameOf
  split_ifs
  · exact ⟨given, rfl, writable⟩
  · cases joined : settings.classSuffix with
    | text s => exact ⟨_, rfl, Value.isWritable_text _⟩
    | _ =>
        rw [joined] at suffix
        cases suffix

theorem allRejected_classFlaws (suffix : settings.classSuffix.isText = true)
    (preferences : ListsTables PreferenceFits entries "preference")
    (writable : (Value.table entries).isWritable = true) (source : TypeRef) :
    AllRejected (classFlaws settings file entries source) := by
  have line : (placeOf file entries).line.isWritable = true := isWritable_found writable "line"
  obtain ⟨name, derived, named⟩ :=
    classNameOf_isOk suffix source (isWritable_found writable "name")
  simp only [classFlaws, derived]
  refine (allRejected_elementFlaws preferences writable fun t fits parts =>
    allRejected_preferenceFlaws fits parts).append ?_
  refine (allRejected_flagFlaws line writable "interface").append ?_
  refine (allRejected_hookFlaws line (isWritable_found writable "post_construct")).append ?_
  exact allRejected_draftFlaws writable named

theorem values_of_typeRefOf {s : String} {reason : Reason} (h : typeRefOf s = .error reason) :
    reason.values = [] := by
  unfold typeRefOf at h
  split at h
  · cases h
  · obtain rfl := Except.error.inj h
    rfl
  · obtain rfl := Except.error.inj h
    rfl

theorem allRejected_declarationFlaws (suffix : settings.classSuffix.isText = true)
    (fits : ClassFits entries) (writable : (Value.table entries).isWritable = true) :
    AllRejected (declarationFlaws settings file (.table entries)) := by
  have line : (placeOf file entries).line.isWritable = true := isWritable_found writable "line"
  rw [declarationFlaws]
  cases given : Table.get? entries "source" with
  | none => exact allRejected_rejected line rfl
  | some v =>
      cases v with
      | text s =>
          cases read : typeRefOf s with
          | ok source =>
              simp only [read]
              exact allRejected_classFlaws suffix fits.preferences writable source
          | error reason =>
              simp only [read]
              exact allRejected_rejected line (by rw [values_of_typeRefOf read]; rfl)
      | _ => cases fits.source _ given

theorem allRejected_documentFlaws (suffix : settings.classSuffix.isText = true)
    (fits : DocumentFits entries) : AllRejected (documentFlaws settings file (.table entries)) :=
  allRejected_elementFlaws fits.classes fits.writable fun _ fits writable =>
    allRejected_declarationFlaws suffix fits writable

end flaws

/-! ### What comes of a document -/

/-- A document fails to be read with its first flaw, so it is read or rejected exactly if there is
none or that is a rejection; all flaws of a document that fits are rejections. -/
theorem declarations_reported (settings : Settings) (file : Option Path) (document : Table) :
    (∀ failure, declarations settings file (.table document) = .error failure ↔
      (documentFlaws settings file (.table document)).head? = some failure) ∧
    (FailsOnly Failure.isRejection (declarations settings file (.table document)) ↔
      ∀ flaw ∈ (documentFlaws settings file (.table document)).head?, flaw.isRejection = true) ∧
    (settings.classSuffix.isText = true → DocumentFits document →
      FailsOnly Failure.isRejection (declarations settings file (.table document))) := by
  have meets : Meets _ (documentFlaws settings file (.table document)) :=
    declarations_meets (.table document)
  refine ⟨fun failure => meets.eq_error_iff, meets.failsOnly_iff, fun suffix fits => ?_⟩
  refine meets.failsOnly_iff.mpr fun flaw first => ?_
  exact allRejected_documentFlaws suffix fits flaw (List.mem_of_mem_head? first)

def classTable (source : Value) (preference : Table) : Table :=
  [("source", source), ("preference", .list [.table preference])]

/-- A document with one class, which has one preference. -/
def oneClass (source : Value) (preference : Table) : Table :=
  [("class", .list [.table (classTable source preference)])]

section oneClass
variable (source : Value) (preference : Table)

theorem get?_oneClass : Table.get? (oneClass source preference) "class" =
    some (.list [.table (classTable source preference)]) := by
  simp [oneClass, Table.get?, Value.same, Value.sameAtom]

theorem get?_classTable_source : Table.get? (classTable source preference) "source" =
    some source := by
  simp [classTable, Table.get?, Value.same, Value.sameAtom]

theorem get?_classTable_preference : Table.get? (classTable source preference) "preference" =
    some (.list [.table preference]) := by
  simp [classTable, Table.get?, Value.same, Value.sameAtom]

end oneClass

theorem listsTables_single {fits : Table → Prop} {entries t : Table} {key : String}
    (under : Table.get? entries key = some (.list [.table t])) (fit : fits t) :
    ListsTables fits entries key := by
  intro v given
  obtain rfl := Option.some.inj (under.symm.trans given)
  exact ⟨[t], rfl, by simpa using fit⟩

theorem documentFits_oneClass {source : String} {preference : Table}
    (fits : PreferenceFits preference)
    (writable : (Value.table (oneClass source preference)).isWritable = true) :
    DocumentFits (oneClass source preference) := by
  refine ⟨listsTables_single (get?_oneClass _ _) ⟨fun v given => ?_, ?_⟩, writable⟩
  · obtain rfl := Option.some.inj ((get?_classTable_source _ _).symm.trans given)
    rfl
  · exact listsTables_single (get?_classTable_preference _ _) fits

/-- A number in the place of a visibility is rejected. -/
theorem declarations_reported_numberedVisibility :
    let document := oneClass "app:Base" [("name", "age"), ("type", "int"), ("visibility", .int 5)]
    DocumentFits document ∧
      FailsOnly Failure.isRejection (declarations {} none (.table document)) := by
  intro document
  have named : Table.get? [("name", "age"), ("type", "int"), ("visibility", .int 5)] "name" =
      some (.text "age") := by decide +kernel
  have preference : PreferenceFits [("name", "age"), ("type", "int"), ("visibility", .int 5)] := by
    intro name given
    obtain rfl := Option.some.inj (named.symm.trans given)
    exact Or.inr rfl
  have fits : DocumentFits document := documentFits_oneClass preference (by decide +kernel)
  exact ⟨fits, (declarations_reported {} none document).2.2 rfl fits⟩

/-- A number in the place of a source stops the reading where a text is needed, without a word to
the user. -/
theorem numberedSource_unreported :
    let document := oneClass (.int 5) [("name", "age"), ("type", "int")]
    declarations {} none (.table document) = .error (.misused .notText) ∧
      ¬FailsOnly Failure.isRejection (declarations {} none (.table document)) := by
  intro document
  have failed : declarations {} none (.table document) = .error (.misused .notText) := by
    simp only [document, declarations, lift_get?, ok_bind, get?_oneClass]
    show [_].mapM (declarationOf {} none) = _
    rw [List.mapM_cons, declarationOf_eq_bind (get?_classTable_source _ _)]
    rfl
  refine ⟨failed, ?_⟩
  rw [failed, failsOnly_error_iff]
  exact Bool.false_ne_true

end Description

end Preferences

import Preferences.Proofs.Description.Flaws
import Preferences.Proofs.Generation.Suffixes

/-! # Descriptions that leave names to the naming style

A preference whose table has no getter, and no setter or remover but truth values, has derived names
only (`isDerived_of_leavesNames`).  So a class that is described by such tables collides with itself
in two cases only: two of its preferences have one suffix, or the suffix of one is that of the
method for the instance (`declarations_clash`). -/

namespace Preferences.Description

/-- The values that an entry of a table lists. -/
def listed (key : String) : Value → List Value
  | .table entries =>
    match ((Table.get? entries key).getD (.list [])).elements with
    | .ok items => items
    | .error _ => []
  | _ => []

/-- The table of a preference leaves the names of its methods to the naming style. -/
def LeavesNames (data : Value) : Prop :=
  ∃ entries, data = .table entries ∧ Table.get? entries "getter" = none ∧
    ∀ key ∈ ["setter", "remover"], ∀ v, Table.get? entries key = some v → ∃ b, v = .bool b

/-! ### What is read -/

section reading
variable {settings : Settings} {file : Option Path} {entries : Table} {data : Value}

/-- The entries that the methods of a preference and its default come from. -/
theorem preferenceOf_ok {p : Preference}
    (read : preferenceOf settings file (.table entries) = .ok p) :
    getterNameOf settings p.name (found entries "getter") = .ok p.getter.name ∧
    mutatorOf (placeOf file entries) (found entries "setter") = .ok p.setter ∧
    mutatorOf (placeOf file entries) (found entries "remover") = .ok p.remover ∧
    ((Table.get? entries "default").getD "").isWritable = true ∧
    p.default = ((Table.get? entries "default").getD "").plain := by
  simp only [preferenceOf, lift_locationOf, lift_get?, lift_entry, ok_bind] at read
  cases named : Table.get? entries "name" with
  | none =>
      rw [named] at read
      cases read
  | some name =>
      cases typed : Table.get? entries "type" with
      | none =>
          rw [named, typed] at read
          cases read
      | some valueType =>
          simp only [named, typed] at read
          obtain ⟨getter, got, read⟩ := bind_eq_ok_iff.mp read
          obtain ⟨visibility, -, read⟩ := bind_eq_ok_iff.mp read
          obtain ⟨u, written, read⟩ := bind_eq_ok_iff.mp read
          obtain ⟨setter, set, read⟩ := bind_eq_ok_iff.mp read
          obtain ⟨remover, removed, read⟩ := bind_eq_ok_iff.mp read
          obtain rfl := Except.ok.inj read
          exact ⟨mapError_eq_ok_iff.mp got, set, removed,
            by simpa using requireWritable_eq_ok_iff.mp (mapError_eq_ok_iff.mp written), rfl⟩

theorem method?_of_mutatorOf {location : Location} {v : Value} {mutator : Mutator}
    (flag : v = .null ∨ ∃ b, v = .bool b) (read : mutatorOf location v = .ok mutator) :
    mutator.method? = none := by
  rcases flag with rfl | ⟨b, rfl⟩
  · obtain rfl := Except.ok.inj read
    rfl
  · cases b <;> obtain rfl := Except.ok.inj read <;> rfl

/-- A preference whose table leaves the names to the style has derived names only. -/
theorem isDerived_of_leavesNames {p : Preference} (leaves : LeavesNames data)
    (read : preferenceOf settings file data = .ok p) : p.IsDerived settings.style := by
  obtain ⟨entries, rfl, ungiven, flags⟩ := leaves
  obtain ⟨getter, setter, remover, -, -⟩ := preferenceOf_ok read
  have flag : ∀ key ∈ ["setter", "remover"],
      found entries key = .null ∨ ∃ b, found entries key = .bool b := by
    intro key hk
    unfold found
    cases given : Table.get? entries key with
    | none => exact Or.inl rfl
    | some v => exact Or.inr (flags key hk v given)
  have unnamed : found entries "getter" = .null := by rw [found, ungiven]; rfl
  have suffixed :
      (settings.style.suffixOf p.name).map (fun suffix => Value.text ("get" ++ suffix)) =
        .ok p.getter.name := by
    rw [unnamed] at getter
    exact getter
  obtain ⟨suffix, derived⟩ : ∃ suffix, settings.style.suffixOf p.name = .ok suffix := by
    cases derived : settings.style.suffixOf p.name with
    | error misuse =>
        rw [derived] at suffixed
        cases suffixed
    | ok suffix => exact ⟨suffix, rfl⟩
  rw [derived] at suffixed
  refine ⟨Members.suffixOf_isOk_iff.mp ⟨suffix, derived⟩, fun other same => ?_,
    method?_of_mutatorOf (flag _ (by simp)) setter,
    method?_of_mutatorOf (flag _ (by simp)) remover⟩
  obtain rfl := Except.ok.inj (derived.symm.trans same)
  exact (Except.ok.inj suffixed).symm

theorem toDeclaration_ok {draft : Draft} {d : Declaration} (made : draft.toDeclaration = .ok d) :
    d.preferences = draft.preferences := by
  have made := mapError_eq_ok_iff.mp made
  unfold Draft.check at made
  split_ifs at made
  cases chosen : draft.storeChoice with
  | error reason =>
      rw [chosen] at made
      cases made
  | ok store =>
      rw [chosen] at made
      obtain rfl := Except.ok.inj made
      rfl

theorem walk_ok {α : Type} {readItem : Value → Except Failure α} {key : String} {results : List α}
    (walked : ((liftM ((Table.get? entries key).getD (.list [])).elements : Except Failure _) >>=
      fun items => items.mapM readItem) = .ok results) :
    List.Forall₂ (fun item result => readItem item = .ok result)
      (listed key (.table entries)) results := by
  obtain ⟨items, met, walked⟩ := bind_eq_ok_iff.mp walked
  have met : ((Table.get? entries key).getD (.list [])).elements = .ok items :=
    mapError_eq_ok_iff.mp met
  simp only [listed, met]
  exact mapM_eq_ok_iff.mp walked

theorem declarationOf_ok {d : Declaration} (read : declarationOf settings file data = .ok d) :
    List.Forall₂ (fun item p => preferenceOf settings file item = .ok p)
      (listed "preference" data) d.preferences := by
  cases data with
  | table entries =>
      cases given : Table.get? entries "source" with
      | none =>
          simp only [declarationOf, draftOf, lift_locationOf, lift_get?, ok_bind, given] at read
          cases read
      | some value =>
          rw [declarationOf_eq_bind given] at read
          obtain ⟨source, -, read⟩ := bind_eq_ok_iff.mp read
          obtain ⟨name, -, read⟩ := bind_eq_ok_iff.mp read
          rw [← bind_assoc] at read
          obtain ⟨preferences, walked, read⟩ := bind_eq_ok_iff.mp read
          obtain ⟨isInterface, -, read⟩ := bind_eq_ok_iff.mp read
          obtain ⟨hook, -, made⟩ := bind_eq_ok_iff.mp read
          rw [toDeclaration_ok (mapError_eq_ok_iff.mp made)]
          exact walk_ok walked
  | _ => cases read

theorem declarations_ok {document : Value} {ds : List Declaration}
    (read : declarations settings file document = .ok ds) :
    List.Forall₂ (fun data d => declarationOf settings file data = .ok d)
      (listed "class" document) ds := by
  cases document with
  | table entries =>
      simp only [declarations, lift_get?, ok_bind] at read
      exact walk_ok read
  | _ => cases read

theorem style_of_ofSettings {g : Generator} (made : Generator.ofSettings settings = .ok g) :
    g.style = settings.style := by
  obtain ⟨table, -, made⟩ := bind_eq_ok_iff.mp made
  obtain rfl := Except.ok.inj made
  rfl

/-- The accessors of a class have derived names if its table leaves them to the style. -/
theorem isDerived_of_declarationOf {d : Declaration}
    (read : declarationOf settings file data = .ok d)
    (leaves : ∀ item ∈ listed "preference" data, LeavesNames item) :
    ∀ p ∈ d.preferences, p.IsDerived settings.style := by
  have known := (List.forall₂_and_left _ _).mpr ⟨leaves, declarationOf_ok read⟩
  have derived : List.Forall₂ (fun p _ => p.IsDerived settings.style ∧ True) d.preferences
      (listed "preference" data) :=
    List.Forall₂.flip (known.imp fun item p h => ⟨isDerived_of_leavesNames h.1 h.2, trivial⟩)
  exact ((List.forall₂_and_left _ _).mp derived).1

end reading

/-! ### What becomes of it -/

/-- What becomes of each class of a document whose types are known and whose table leaves the names
to the style: it is rejected exactly if the suffixes of its preferences clash, unless something in
it is too long to be written; a rejection is for a name that is repeated; and if the suffixes do not
clash, all names differ. -/
theorem declarations_clash {settings : Settings} {file : Option Path} {document : Value}
    {ds : List Declaration} {g : Generator} (read : declarations settings file document = .ok ds)
    (made : Generator.ofSettings settings = .ok g) :
    List.Forall₂ (fun data d =>
      (∀ item ∈ listed "preference" data, LeavesNames item) →
      (∀ p ∈ d.preferences, g.Resolves p) →
      ((∃ r, g.generate d = .error (.rejected r)) ↔ d.SuffixesClash settings.style ∧
        g.CanWrite d ∧ ∀ location, d.location = some location → location.line.isWritable = true) ∧
      (∀ r, g.generate d = .error (.rejected r) →
        ∃ name, r = ⟨.repeatedMethod d.name name, d.location⟩) ∧
      (¬d.SuffixesClash settings.style → (d.methodNames settings.style).Nodup ∧
        (g.CanWrite d → ∃ c, g.generate d = .ok c)))
      (listed "class" document) ds := by
  rw [← style_of_ofSettings made]
  refine (declarations_ok read).imp fun data d read leaves known => ?_
  have derived : ∀ p ∈ d.preferences, p.IsDerived g.style := by
    rw [style_of_ofSettings made]
    exact isDerived_of_declarationOf read leaves
  refine ⟨Generator.generate_rejected_iff derived known, fun r rejected => ?_, fun apart => ?_⟩
  · obtain ⟨-, -, name, -, same⟩ := Generator.repeats_of_rejected known rejected
    exact ⟨name, same⟩
  · refine ⟨(Declaration.nodup_methodNames_iff derived).mpr apart, fun writable => ?_⟩
    obtain ⟨c, done, -⟩ := Generator.generate_of_accepts
      ((Generator.accepts_iff_of_derived derived known).mpr ⟨apart, writable⟩)
    exact ⟨c, done⟩

/-- The tables of two preferences whose names only differ in case. -/
def twinTables : List Value :=
  [.table [("name", "age"), ("type", "int"), ("setter", .bool true)],
    .table [("name", "Age"), ("type", "int")]]

/-- The table of a class with these preferences. -/
def twinTable (line : Int) : Table :=
  [("source", "ages:Base"), ("line", .int line),
    ("preference", .list twinTables)]

def twinDocument (line : Int) : Value := .table [("class", .list [.table (twinTable line)])]

def twin (name : String) (setter : Mutator) : Preference where
  name := name
  valueType := "int"
  getter := { name := "get_age" }
  setter := setter
  location := some ⟨none, .null⟩

/-- The class that the table describes. -/
def twins (line : Int) : Declaration where
  source := ⟨"ages", "Base"⟩
  name := "BaseImpl"
  preferences := [twin "age" .derived, twin "Age" .skip]
  isInterface := false
  store := .default
  hook := none
  location := some ⟨none, .int line⟩
  source_module_ne := by decide
  preferences_ne := List.cons_ne_nil _ _

theorem twin_isTyped (name : String) {setter : Mutator} (undeclared : setter.method? = none) :
    (twin name setter).IsTyped := by
  refine ⟨rfl, rfl, Or.inl rfl, fun m declared => ?_⟩
  have only : (twin name setter).declaredMethods = [(twin name setter).getter] := by
    rw [Preference.declaredMethods]
    show _ :: (setter.method?.toList ++ _) = _
    rw [undeclared]
    rfl
  rw [only] at declared
  obtain rfl := List.mem_singleton.mp declared
  rfl

theorem suffixOf_twin : ∀ name ∈ ["age", "Age"],
    Naming.Style.snake.suffixOf (.text name) = .ok "_age" := by decide +kernel

theorem read_twinTables :
    twinTables.mapM (preferenceOf {} none) = .ok [twin "age" .derived,
      twin "Age" .skip] := by
  have first := suffixOf_twin "age" (by simp)
  have second := suffixOf_twin "Age" (by simp)
  simp [twinTables, preferenceOf, lift_locationOf, lift_get?, lift_entry, ok_bind, found, placeOf,
    Table.get?, Value.same, Value.sameAtom, Value.isTruthy, getterNameOf, first, second, Except.map]
  rfl

theorem leavesNames_twinTables : ∀ item ∈ twinTables, LeavesNames item := by
  rw [twinTables, List.forall_mem_cons, List.forall_mem_singleton]
  refine ⟨⟨_, rfl, by decide +kernel, ?_⟩, ⟨_, rfl, by decide +kernel, ?_⟩⟩ <;>
    simp [Table.get?, Value.same, Value.sameAtom]

section twins
variable (line : Int)

theorem read_twins : declarations {} none (twinDocument line) = .ok [twins line] := by
  have ref : typeRefOf "ages:Base" = .ok ⟨"ages", "Base"⟩ := rfl
  have source : sourceOf ⟨none, .int line⟩ (.text "ages:Base") = .ok ⟨"ages", "Base"⟩ := by
    rw [sourceOf, ref]
  simp [declarations, declarationOf, draftOf, twinDocument, twinTable, ok_bind, lift_ok,
    lift_locationOf, lift_entry, found, placeOf, flagOf, Table.get?, Value.get?, Value.same,
    Value.sameAtom, Value.elements, source, read_twinTables]
  rfl

theorem listed_class : listed "class" (twinDocument line) = [.table (twinTable line)] := by
  simp [listed, twinDocument, Table.get?, Value.same, Value.sameAtom, Value.elements]

theorem listed_preference :
    listed "preference" (.table (twinTable line)) = twinTables := by
  simp [listed, twinTable, Table.get?, Value.same, Value.sameAtom, Value.elements]

theorem twins_leaveNames :
    ∀ item ∈ listed "preference" (.table (twinTable line)), LeavesNames item := by
  rw [listed_preference]
  exact leavesNames_twinTables

theorem twins_isDerived : ∀ p ∈ (twins line).preferences, p.IsDerived .snake := by
  have each := declarations_ok (read_twins line)
  rw [listed_class] at each
  exact isDerived_of_declarationOf (List.forall₂_cons.mp each).1 (twins_leaveNames line)

theorem twins_resolve : ∀ p ∈ (twins line).preferences, ({} : Generator).Resolves p := by
  have int : ({} : Generator).table.resolve? "int" = some ⟨"get_int", "put_int", "0"⟩ := by
    decide +kernel
  simp only [twins, List.forall_mem_cons]
  exact ⟨⟨"int", _, rfl, int⟩, ⟨"int", _, rfl, int⟩, by simp⟩

theorem twins_clash : (twins line).SuffixesClash .snake := by
  have suffixes : (twins line).suffixes .snake = [.ok "_age", .ok "_age"] := by
    simp only [Declaration.suffixes, twins, twin, List.map_cons, List.map_nil]
    rw [suffixOf_twin "age" (by simp), suffixOf_twin "Age" (by simp)]
  refine Or.inl ?_
  rw [suffixes]
  simp

theorem twins_canWrite : ({} : Generator).CanWrite (twins line) := by
  refine Generator.canWrite_of_isTyped ⟨rfl, ?_, Or.inl rfl, nofun⟩ Generator.standard_isTyped
  simp only [twins, List.forall_mem_cons]
  exact ⟨twin_isTyped _ rfl, twin_isTyped _ rfl, by simp⟩

end twins

theorem declarations_clash_twins :
    declarations {} none (twinDocument 7) = .ok [twins 7] ∧
    Generator.ofSettings {} = .ok {} ∧
    ∃ r, ({} : Generator).generate (twins 7) = .error (.rejected r) := by
  have made : Generator.ofSettings {} = .ok {} := rfl
  have each := declarations_clash (read_twins 7) made
  rw [listed_class] at each
  obtain ⟨rejected, -, -⟩ :=
    (List.forall₂_cons.mp each).1 (twins_leaveNames 7) (twins_resolve 7)
  refine ⟨read_twins 7, made, rejected.mpr ⟨twins_clash 7, twins_canWrite 7, ?_⟩⟩
  intro location given
  obtain rfl := Option.some.inj given
  decide +kernel

/-- Twins in a class on a line whose number is too long to be written: their suffixes clash, but no
rejection comes out. -/
theorem twins_unreported :
    declarations {} none (twinDocument longNumber) = .ok [twins longNumber] ∧
    listed "class" (twinDocument longNumber) = [.table (twinTable longNumber)] ∧
    (∀ item ∈ listed "preference" (.table (twinTable longNumber)), LeavesNames item) ∧
    (∀ p ∈ (twins longNumber).preferences, ({} : Generator).Resolves p) ∧
    (twins longNumber).SuffixesClash .snake ∧
    ¬∃ r, ({} : Generator).generate (twins longNumber) = .error (.rejected r) := by
  refine ⟨read_twins _, listed_class _, twins_leaveNames _, twins_resolve _, twins_clash _, ?_⟩
  rw [Generator.generate_rejected_iff (twins_isDerived longNumber) (twins_resolve longNumber)]
  rintro ⟨-, -, line⟩
  have written := line _ rfl
  rw [longNumber_unwritable] at written
  cases written

end Preferences.Description

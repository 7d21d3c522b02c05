import Preferences.Description
import Preferences.Proofs.Failure.Computations
import Preferences.Proofs.Store.TextKeyed

/-! # The flaws of a description

A description is read entry by entry, and the reading stops at the first entry that it cannot take.
The flaws of a document are all the entries that it could stop at, in the order in which it comes to
them (`documentFlaws`), each looked at for itself: what is rejected, at its location, and what is
used where its kind does not fit.  The reading fails with the first flaw, and succeeds if there is
none (`declarations_meets`). -/

namespace Preferences.Description

/-! ### Flaws of entries -/

/-- The entry of a table, or nothing where there is none. -/
def found (entries : Table) (key : String) : Value := (Table.get? entries key).getD .null

def placeOf (file : Option Path) (entries : Table) : Location := ⟨file, found entries "line"⟩

section entries
variable (settings : Settings) (location : Location)

/-- The failure that a rejection at a location is. -/
def rejected (reason : Reason) : Failure := .ofRejection ⟨reason, some location⟩

/-- A preference has to have the entry. -/
def missingFlaws (entries : Table) (key : String) : List Failure :=
  if (Table.get? entries key).isSome then [] else [rejected location (.missingEntry key)]

/-- Whether the value names a visibility. -/
def namesVisibility : Value → Bool
  | .text word => (Visibility.ofName? word).isSome
  | _ => false

/-- A visibility has to be one of the known words. -/
def visibilityFlaws (value : Value) : List Failure :=
  if namesVisibility value then [] else [rejected location (.unknownVisibility value)]

/-- A name that the name of a getter is derived from has to be a text. -/
def getterFlaws (entries : Table) : List Failure :=
  match Table.get? entries "name" with
  | none => []
  | some name =>
    if (found entries "getter").isTruthy || name.isText then []
    else [.misused (settings.style.misuse name)]

/-- A default has to be a value that can be written. -/
def defaultFlaws (value : Value) : List Failure :=
  if value.isWritable then [] else [.misused .unwritable]

/-- A setter or remover has to be asked for by a truth value, a name, or a table with a name. -/
def mutatorFlaws : Value → List Failure
  | .null | .bool _ | .text _ => []
  | .table entries =>
    if (Table.get? entries "name").isSome then
      visibilityFlaws location ((Table.get? entries "visibility").getD "public")
    else [rejected location (.badMethod (.table entries))]
  | value => [rejected location (.badMethod value)]

/-- A flag has to be a truth value. -/
def flagFlaws (entries : Table) (key : String) : List Failure :=
  match (Table.get? entries key).getD (.bool false) with
  | .bool _ => []
  | value => [rejected location (.notAFlag key value)]

/-- A hook has to be a name, or a table with a method. -/
def hookFlaws : Value → List Failure
  | .null | .text _ => []
  | .table entries =>
    if (Table.get? entries "method").isSome then flagFlaws location entries "inject_context"
    else [rejected location (.badHook (.table entries))]
  | value => [rejected location (.badHook value)]

end entries

/-! ### Flaws of tables -/

section tables
variable (settings : Settings) (file : Option Path)

def preferenceFlaws : Value → List Failure
  | .table entries =>
    let location := placeOf file entries
    missingFlaws location entries "name" ++ (missingFlaws location entries "type"
      ++ (getterFlaws settings entries
      ++ (visibilityFlaws location ((Table.get? entries "visibility").getD "public")
      ++ (defaultFlaws ((Table.get? entries "default").getD "")
      ++ (mutatorFlaws location (found entries "setter")
      ++ mutatorFlaws location (found entries "remover"))))))
  | _ => [.misused .notTable]

/-- The flaws of the values that a walk through an entry meets. -/
def elementFlaws (flawsOf : Value → List Failure) (value : Value) : List Failure :=
  match value.elements with
  | .ok items => items.flatMap flawsOf
  | .error misuse => [.misused misuse]

/-- Whether a walk through the value meets nothing. -/
def isBare (value : Value) : Bool :=
  match value.elements with
  | .ok items => items.isEmpty
  | .error _ => true

/-- A class has to have preferences, and a store has to have a name if it is not the default one. -/
def draftFlaws (entries : Table) (name : Value) : List Failure :=
  let location := placeOf file entries
  if isBare ((Table.get? entries "preference").getD (.list [])) then
    [rejected location (.noPreferences name)]
  else if found entries "store" ≠ .null ∧ (found entries "store").isTruthy = false then
    [rejected location (.noStoreName name)]
  else []

def classFlaws (entries : Table) (source : TypeRef) : List Failure :=
  let location := placeOf file entries
  match classNameOf settings source (found entries "name") with
  | .error misuse => [.misused misuse]
  | .ok name =>
    elementFlaws (preferenceFlaws settings file)
        ((Table.get? entries "preference").getD (.list []))
      ++ (flagFlaws location entries "interface"
      ++ (hookFlaws location (found entries "post_construct")
      ++ draftFlaws file entries name))

def declarationFlaws : Value → List Failure
  | .table entries =>
    let location := placeOf file entries
    match Table.get? entries "source" with
    | none => [rejected location .missingSource]
    | some (.text s) =>
      match typeRefOf s with
      | .ok source => classFlaws settings file entries source
      | .error reason => [rejected location reason]
    | some _ => [.misused .notText]
  | _ => [.misused .notTable]

def documentFlaws : Value → List Failure
  | .table entries =>
    elementFlaws (declarationFlaws settings file) ((Table.get? entries "class").getD (.list []))
  | _ => [.misused .notTable]

end tables

/-! ### Reading entries -/

section reading
variable {settings : Settings} {file : Option Path} {location : Location} {entries : Table}

theorem visibilityOf_meets (value : Value) :
    Meets (visibilityOf location value) (visibilityFlaws location value) := by
  unfold visibilityOf visibilityFlaws
  cases value with
  | text word =>
      cases named : Visibility.ofName? word with
      | none =>
          simp only [namesVisibility, named]
          rfl
      | some visibility =>
          simp only [namesVisibility, named]
          exact meets_ok visibility
  | _ => rfl

theorem flagOf_meets (key : String) :
    Meets (flagOf location (.table entries) key) (flagFlaws location entries key) := by
  unfold flagFlaws
  show Meets (match (Table.get? entries key).getD (.bool false) with
    | .bool b => .ok b
    | value => reject location (.notAFlag key value)) _
  cases (Table.get? entries key).getD (.bool false) with
  | bool b => exact meets_ok b
  | _ => rfl

theorem mutatorOf_meets (value : Value) :
    Meets (mutatorOf location value) (mutatorFlaws location value) := by
  cases value with
  | null => exact meets_ok _
  | bool b => cases b <;> exact meets_ok _
  | text name => exact meets_ok _
  | table entries =>
      simp only [mutatorOf, mutatorFlaws]
      cases Table.get? entries "name" with
      | none => rfl
      | some name =>
          rw [Option.isSome_some, if_pos rfl]
          rw [← List.append_nil (visibilityFlaws _ _)]
          exact (visibilityOf_meets _).bind fun visibility _ => meets_ok _
  | _ => rfl

theorem hookOf_meets (value : Value) :
    Meets (hookOf location value) (hookFlaws location value) := by
  cases value with
  | null => exact meets_ok _
  | text method => exact meets_ok _
  | table entries =>
      simp only [hookOf, hookFlaws]
      cases Table.get? entries "method" with
      | none => rfl
      | some method =>
          rw [Option.isSome_some, if_pos rfl]
          rw [← List.append_nil (flagFlaws _ _ _)]
          exact (flagOf_meets _).bind fun takesContext _ => meets_ok _
  | _ => rfl

/-! A table can be looked into. -/

theorem lift_get? (key : String) :
    (liftM ((Value.table entries).get? key) : Except Failure _) = .ok (Table.get? entries key) :=
  rfl

theorem lift_entry (key : String) :
    (liftM (entry (.table entries) key) : Except Failure _) = .ok (found entries key) := rfl

theorem lift_locationOf :
    (liftM (locationOf file (.table entries)) : Except Failure _) = .ok (placeOf file entries) :=
  rfl

section walk
variable {β : Type} {read : Value → Except Failure β} {flawsOf : Value → List Failure}

theorem walk_meets (each : ∀ v, Meets (read v) (flawsOf v)) (value : Value) :
    Meets ((liftM value.elements : Except Failure _) >>= fun items => items.mapM read)
      (elementFlaws flawsOf value) := by
  unfold elementFlaws
  cases value.elements with
  | error misuse => rfl
  | ok items => exact Meets.mapM each

theorem eq_nil_iff_isBare {value : Value} {results : List β}
    (walked : ((liftM value.elements : Except Failure _) >>= fun items => items.mapM read)
      = .ok results) : results = [] ↔ isBare value = true := by
  unfold isBare
  cases elements : value.elements with
  | error misuse =>
      rw [elements] at walked
      cases walked
  | ok items =>
      rw [elements] at walked
      have same : items.length = results.length := (mapM_eq_ok_iff.mp walked).length_eq
      rw [List.isEmpty_iff, ← List.length_eq_zero_iff, ← same, List.length_eq_zero_iff]

end walk

theorem getterNameOf_meets {name : Value} (named : Table.get? entries "name" = some name) :
    Meets (liftM (getterNameOf settings name (found entries "getter")) : Except Failure Value)
      (getterFlaws settings entries) := by
  simp only [getterFlaws, named]
  unfold getterNameOf
  by_cases given : (found entries "getter").isTruthy = true
  · rw [if_pos given, given, Bool.true_or, if_pos rfl]
    exact meets_ok _
  · rw [if_neg given, Bool.eq_false_iff.mpr given, Bool.false_or]
    cases name with
    | text name => exact meets_ok _
    | _ => rfl

theorem requireWritable_meets (value : Value) :
    Meets (liftM (Value.requireWritable [value]) : Except Failure Unit) (defaultFlaws value) := by
  simp only [Value.requireWritable, List.all_cons, List.all_nil, Bool.and_true, defaultFlaws]
  split_ifs
  · exact meets_ok ()
  · rfl

theorem preferenceOf_meets (data : Value) :
    Meets (preferenceOf settings file data) (preferenceFlaws settings file data) := by
  cases data with
  | table entries =>
      simp only [preferenceOf, lift_locationOf, lift_get?, lift_entry, preferenceFlaws,
        missingFlaws, ok_bind]
      cases named : Table.get? entries "name" with
      | none => rfl
      | some name =>
          cases typed : Table.get? entries "type" with
          | none => rfl
          | some valueType =>
              simp only [Option.isSome_some, if_true, List.nil_append]
              refine (getterNameOf_meets named).bind fun getter _ => ?_
              refine (visibilityOf_meets _).bind fun visibility _ => ?_
              refine (requireWritable_meets _).bind fun _ _ => ?_
              refine (mutatorOf_meets _).bind fun setter _ => ?_
              rw [← List.append_nil (mutatorFlaws _ _)]
              exact (mutatorOf_meets _).bind fun remover _ => meets_ok _
  | _ => rfl

theorem module_ne_of_typeRefOf {text : String} {ref : TypeRef} (h : typeRefOf text = .ok ref) :
    ref.module ≠ "" := by
  unfold typeRefOf at h
  split at h
  · next known read =>
      obtain rfl := Except.ok.inj h
      unfold TypeRef.ofText TypeRef.ofChars at read
      obtain ⟨module, name⟩ := TypeRef.split (Text.trim text.toList)
      simp only at read
      split_ifs at read with identifier bare
      obtain rfl := Except.ok.inj read
      simpa [String.ext_iff] using bare
  · cases h
  · cases h

/-- A draft with a source is refused if it has no preferences or no name for its store. -/
theorem toDeclaration_meets {draft : Draft} (module : draft.source.module ≠ "")
    (choice : draft.useDefaultStore = decide (draft.storeName = .null)) :
    Meets (draft.toDeclaration.mapError Failure.ofRejection)
      (if draft.preferences = [] then [.ofRejection ⟨.noPreferences draft.name, draft.location⟩]
      else if draft.storeName ≠ .null ∧ draft.storeName.isTruthy = false then
        [.ofRejection ⟨.noStoreName draft.name, draft.location⟩]
      else []) := by
  unfold Draft.toDeclaration Draft.check Draft.storeChoice
  rw [dif_neg module, choice]
  by_cases bare : draft.preferences = []
  · rw [dif_pos bare, if_pos bare]
    rfl
  · rw [dif_neg bare, if_neg bare]
    by_cases none : draft.storeName = .null
    · rw [if_neg (not_and_of_not_left _ (not_not.mpr none)), decide_eq_true none, if_pos rfl,
        if_pos none]
      exact meets_ok _
    · rw [decide_eq_false none, if_neg Bool.false_ne_true]
      by_cases named : draft.storeName.isTruthy = true
      · rw [dif_pos named, if_neg (by simp [named])]
        exact meets_ok _
      · rw [dif_neg named, if_pos ⟨none, Bool.eq_false_iff.mpr named⟩]
        rfl

/-- The declaration of the class with a source that a table describes. -/
def classOf (settings : Settings) (file : Option Path) (entries : Table) (source : TypeRef) :
    Except Failure Declaration := do
  let location := placeOf file entries
  let name ← classNameOf settings source (found entries "name")
  let described ← ((Table.get? entries "preference").getD (.list [])).elements
  let preferences ← described.mapM (preferenceOf settings file)
  let isInterface ← flagOf location (.table entries) "interface"
  let hook ← hookOf location (found entries "post_construct")
  let draft : Draft := { source, name, preferences, isInterface,
                         useDefaultStore := found entries "store" = .null,
                         storeName := found entries "store", hook, location := some location }
  draft.toDeclaration.mapError .ofRejection

theorem declarationOf_eq_bind {value : Value} (given : Table.get? entries "source" = some value) :
    declarationOf settings file (.table entries) =
      sourceOf (placeOf file entries) value >>= classOf settings file entries := by
  simp only [declarationOf, draftOf, lift_locationOf, lift_get?, lift_entry, ok_bind, given,
    bind_assoc]
  rfl

theorem classOf_meets {source : TypeRef} (module : source.module ≠ "") :
    Meets (classOf settings file entries source) (classFlaws settings file entries source) := by
  unfold classOf classFlaws
  cases classNameOf settings source (found entries "name") with
  | error misuse => rfl
  | ok name =>
      simp only [lift_ok, ok_bind]
      rw [← bind_assoc]
      refine (walk_meets preferenceOf_meets _).bind fun preferences walked => ?_
      refine (flagOf_meets _).bind fun isInterface _ => ?_
      refine (hookOf_meets _).bind fun hook _ => ?_
      simp only [draftFlaws, ← eq_nil_iff_isBare walked]
      exact toDeclaration_meets module rfl

theorem declarationOf_meets (data : Value) :
    Meets (declarationOf settings file data) (declarationFlaws settings file data) := by
  cases data with
  | table entries =>
      rw [declarationFlaws]
      cases given : Table.get? entries "source" with
      | none =>
          simp only [declarationOf, draftOf, lift_locationOf, lift_get?, ok_bind, given]
          rfl
      | some value =>
          rw [declarationOf_eq_bind given]
          cases value with
          | text s =>
              simp only [sourceOf]
              cases read : typeRefOf s with
              | error reason => rfl
              | ok source => exact classOf_meets (module_ne_of_typeRefOf read)
          | _ => rfl
  | _ => rfl

theorem declarations_meets (document : Value) :
    Meets (declarations settings file document) (documentFlaws settings file document) := by
  cases document with
  | table entries =>
      simp only [declarations, lift_get?, ok_bind]
      exact walk_meets declarationOf_meets _
  | _ => rfl

end reading

end Preferences.Description

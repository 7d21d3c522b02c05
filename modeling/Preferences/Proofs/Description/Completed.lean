import Preferences.Proofs.Description.Derived
import Preferences.Proofs.Generation.Alike
import Preferences.Proofs.Settings.Types

/-! # Descriptions with everything written out

What a description leaves out has a meaning, and could be written out: the name of a class, that it
is no interface, and of a preference its key, its getter, its visibility, that it has no setter and
no remover, and its default (`completed`).  The document then describes declarations that are alike
(`declarations_completed`), so nothing else is generated (`generateAll_completed`). -/

namespace Preferences

namespace Table

/-- The table with what is left out of it written out, for these keys. -/
def complete (meant : String → Option Value) (keys : List String) (t : Table) : Table :=
  t ++ keys.filterMap fun key : String =>
    if (t.get? key).isSome then none else (meant key).map fun v => (.text key, v)

/-- The table with an entry changed. -/
def mapEntry (key : String) (f : Value → Value) (t : Table) : Table :=
  t.map fun entry => if entry.1.same key then (entry.1, f entry.2) else entry

theorem get?_append (t u : Table) (key : Value) :
    Table.get? (t ++ u) key = (t.get? key).or (Table.get? u key) := by
  unfold get?
  rw [List.find?_append]
  cases List.find? (·.1.same key) t <;> rfl

theorem same_text (name key : String) : (Value.text name).same key = decide (name = key) := by
  rw [Value.same_eq_decide rfl]
  exact decide_eq_decide.mpr ⟨Value.text.inj, congrArg Value.text⟩

theorem get?_complete (meant : String → Option Value) (keys : List String) (t : Table)
    (key : String) : (t.complete meant keys).get? key =
      (t.get? key).or (if key ∈ keys then meant key else none) := by
  unfold complete
  rw [get?_append]
  cases given : t.get? key with
  | some v => rfl
  | none =>
      rw [Option.none_or, Option.none_or]
      induction keys with
      | nil => rfl
      | cons other keys ih =>
          rw [List.filterMap_cons]
          by_cases same : other = key
          · subst same
            rw [if_pos List.mem_cons_self]
            simp only [given, Option.isSome_none, Bool.false_eq_true, if_false]
            cases means : meant other with
            | none =>
                rw [means] at ih
                exact ih.trans (by split_ifs <;> rfl)
            | some v => simp [get?_cons, same_text]
          · have later : (key ∈ other :: keys) = (key ∈ keys) := by simp [Ne.symm same]
            simp only [later, ← ih]
            cases t.get? other with
            | some v => rfl
            | none => cases meant other <;> simp [get?_cons, same_text, same]

theorem get?_mapEntry (key : String) (f : Value → Value) (t : Table) (other : String) :
    (t.mapEntry key f).get? other =
      if other = key then (t.get? other).map f else t.get? other := by
  induction t with
  | nil => split_ifs <;> rfl
  | cons entry rest ih =>
      have step : mapEntry key f (entry :: rest) =
          (if entry.1.same key then (entry.1, f entry.2) else entry) :: mapEntry key f rest := rfl
      rw [step, get?_cons, get?_cons, ih]
      by_cases same : other = key
      · subst same
        by_cases here : entry.1.same other <;> simp [here]
      · by_cases here : entry.1 = .text key
        · have away : (Value.text key).same other = false := by simp [same_text, Ne.symm same]
          simp [here, away, same, same_text]
        · have away : entry.1.same key = false := by
            rw [Value.same_eq_decide rfl, decide_eq_false here]
          simp [away, same]

end Table

namespace Description

/-! ### What is meant -/

/-- What a preference means that leaves out an entry. -/
def meantByPreference (settings : Settings) (types : StorageTable) (entries : Table) :
    String → Option Value
  | "key" => Table.get? entries "name"
  | "getter" =>
    match (Table.get? entries "name").map settings.style.suffixOf with
    | some (.ok suffix) => some (.text ("get" ++ suffix))
    | _ => none
  | "visibility" => some "public"
  | "setter" | "remover" => some (.bool false)
  | "default" =>
    match Table.get? entries "type" with
    | some (.text valueType) => (types.resolve? valueType).map StorageMethod.default
    | _ => none
  | _ => none

/-- What a class means that leaves out an entry. -/
def meantByClass (settings : Settings) (entries : Table) : String → Option Value
  | "name" =>
    match Table.get? entries "source", settings.classSuffix with
    | some (.text s), .text suffix =>
      match typeRefOf s with
      | .ok source => some (.text (source.name ++ suffix))
      | .error _ => none
    | _, _ => none
  | "interface" => some (.bool false)
  | _ => none

def completedPreference (settings : Settings) (types : StorageTable) : Value → Value
  | .table entries =>
    .table (Table.complete (meantByPreference settings types entries)
      ["key", "getter", "visibility", "setter", "remover", "default"] entries)
  | v => v

/-- The list with a change made to each item. -/
def eachItem (f : Value → Value) : Value → Value
  | .list items => .list (items.map f)
  | v => v

def completedClass (settings : Settings) (types : StorageTable) : Value → Value
  | .table entries =>
    .table (Table.complete (meantByClass settings entries) ["name", "interface"]
      (Table.mapEntry "preference" (eachItem (completedPreference settings types)) entries))
  | v => v

def completed (settings : Settings) (types : StorageTable) : Value → Value
  | .table entries =>
    .table (Table.mapEntry "class" (eachItem (completedClass settings types)) entries)
  | v => v

/-! ### Reading alike -/

section alike
variable {α β γ δ : Type} {possible : Prop} {R : α → β → Prop} {S : γ → δ → Prop}

/-- What the second reading gives is like what the first gives, and it gives something if that is
possible. -/
def ReadAlike (possible : Prop) (R : α → β → Prop) (x : Except Failure α) (y : Except Failure β) :
    Prop :=
  ∀ a, x = .ok a → (possible → ∃ b, y = .ok b) ∧ ∀ b, y = .ok b → R a b

theorem readAlike_ok {a : α} {b : β} (h : R a b) : ReadAlike possible R (.ok a) (.ok b) := by
  intro a' same
  obtain rfl := Except.ok.inj same
  refine ⟨fun _ => ⟨b, rfl⟩, fun b' same' => ?_⟩
  obtain rfl := Except.ok.inj same'
  exact h

theorem readAlike_error (failure : Failure) (y : Except Failure β) :
    ReadAlike possible R (.error failure) y := nofun

theorem readAlike_of_eq {x y : Except Failure α} {R : α → α → Prop} (same : y = x)
    (refl : ∀ a, R a a) : ReadAlike possible R x y := by
  subst same
  cases y with
  | error failure => exact readAlike_error failure _
  | ok a => exact readAlike_ok (refl a)

theorem ReadAlike.bind {x : Except Failure α} {y : Except Failure β} {f : α → Except Failure γ}
    {g : β → Except Failure δ} (first : ReadAlike possible R x y)
    (next : ∀ a b, x = .ok a → R a b → ReadAlike possible S (f a) (g b)) :
    ReadAlike possible S (x >>= f) (y >>= g) := by
  intro c read
  obtain ⟨a, done, read⟩ := bind_eq_ok_iff.mp read
  obtain ⟨can, alike⟩ := first a done
  constructor
  · intro h
    obtain ⟨b, done'⟩ := can h
    obtain ⟨d, read'⟩ := (next a b done (alike b done') c read).1 h
    exact ⟨d, bind_eq_ok_iff.mpr ⟨b, done', read'⟩⟩
  · intro d read'
    obtain ⟨b, done', read'⟩ := bind_eq_ok_iff.mp read'
    exact (next a b done (alike b done') c read).2 d read'

theorem ReadAlike.bind_same {x y : Except Failure α} {f : α → Except Failure γ}
    {g : α → Except Failure δ} (same : y = x)
    (next : ∀ a, x = .ok a → ReadAlike possible S (f a) (g a)) :
    ReadAlike possible S (x >>= f) (y >>= g) := by
  refine (readAlike_of_eq same fun a => rfl).bind ?_
  rintro a _ done rfl
  exact next a done

theorem ReadAlike.mapM {f : γ → Except Failure α} {g : δ → Except Failure β} {xs : List γ}
    {ys : List δ} (each : List.Forall₂ (fun x y => ReadAlike possible R (f x) (g y)) xs ys) :
    ReadAlike possible (List.Forall₂ R) (xs.mapM f) (ys.mapM g) := by
  induction each with
  | nil => exact readAlike_ok List.Forall₂.nil
  | cons first _ ih =>
      rw [List.mapM_cons, List.mapM_cons]
      refine first.bind fun a b _ one => ih.bind fun as bs _ all => ?_
      exact readAlike_ok (List.Forall₂.cons one all)

/-- A walk through a value in which each item of a list is changed. -/
theorem readAlike_walk {readItem : Value → Except Failure α} {f : Value → Value}
    {R : α → α → Prop} (refl : ∀ a, R a a)
    (each : ∀ item, ReadAlike possible R (readItem item) (readItem (f item))) (v : Value) :
    ReadAlike possible (List.Forall₂ R)
      ((liftM v.elements : Except Failure _) >>= fun items => items.mapM readItem)
      ((liftM (eachItem f v).elements : Except Failure _) >>= fun items =>
        items.mapM readItem) := by
  cases v with
  | list items =>
      refine ReadAlike.mapM (List.forall₂_map_right_iff.mpr ?_)
      exact List.forall₂_same.mpr fun item _ => each item
  | _ => exact readAlike_of_eq rfl fun _ => List.forall₂_same.mpr fun a _ => refl a

theorem eachItem_getD (f : Value → Value) (v? : Option Value) :
    (v?.map (eachItem f)).getD (.list []) = eachItem f (v?.getD (.list [])) := by
  cases v? <;> rfl

end alike

section reading
variable {settings : Settings} {types : StorageTable} {file : Option Path} {entries after : Table}

/-! ### Tables -/

/-- Every entry of the second table is that of the first, or as it is meant. -/
def Completes (meant : String → Option Value) (entries after : Table) : Prop :=
  ∀ key : String, Table.get? after key = (Table.get? entries key).or (meant key)

theorem completes_complete {meant : String → Option Value} {keys : List String}
    (all : ∀ key, key ∉ keys → meant key = none) (entries : Table) :
    Completes meant entries (Table.complete meant keys entries) := by
  intro key
  rw [Table.get?_complete]
  split_ifs with among
  · rfl
  · rw [all key among]

theorem Completes.get?_eq {meant : String → Option Value} (h : Completes meant entries after)
    (key : String) (nothing : meant key = none) :
    Table.get? after key = Table.get? entries key := by
  rw [h, nothing, Option.or_none]

/-! ### Preferences -/

theorem completes_preference (settings : Settings) (types : StorageTable) (entries : Table) :
    Completes (meantByPreference settings types entries) entries
      (Table.complete (meantByPreference settings types entries)
        ["key", "getter", "visibility", "setter", "remover", "default"] entries) := by
  refine completes_complete (fun key other => ?_) entries
  unfold meantByPreference
  split <;> first | rfl | simp at other

section preference
variable (h : Completes (meantByPreference settings types entries) entries after)
include h

/-- A getter that is written out has the name that it would have anyway. -/
theorem Completes.getterNameOf_eq {name : Value} (named : Table.get? entries "name" = some name) :
    getterNameOf settings name (found after "getter") =
      getterNameOf settings name (found entries "getter") := by
  unfold found
  rw [h]
  cases Table.get? entries "getter" with
  | some given => rfl
  | none =>
      simp only [Option.none_or, meantByPreference, named, Option.map_some]
      cases derived : settings.style.suffixOf name with
      | error misuse => rfl
      | ok suffix => simp [getterNameOf, Value.isTruthy, derived, Except.map]

theorem Completes.visibilityOf_eq (location : Location) :
    visibilityOf location ((Table.get? after "visibility").getD "public") =
      visibilityOf location ((Table.get? entries "visibility").getD "public") := by
  rw [h]
  cases Table.get? entries "visibility" <;> rfl

theorem Completes.mutatorOf_eq (location : Location) {key : String}
    (own : key = "setter" ∨ key = "remover") :
    mutatorOf location (found after key) = mutatorOf location (found entries key) := by
  unfold found
  rw [h]
  cases Table.get? entries key with
  | some given => rfl
  | none => rcases own with rfl | rfl <;> rfl

/-- A key that is written out is the one that the property would be stored under anyway. -/
theorem Completes.orElse_eq {name : Value} (named : Table.get? entries "name" = some name) :
    (found after "key").orElse name = (found entries "key").orElse name := by
  have again : name.orElse name = Value.null.orElse name := by
    unfold Value.orElse
    split_ifs <;> first | rfl | contradiction
  unfold found
  rw [h]
  cases Table.get? entries "key" with
  | some v => rfl
  | none =>
      simp only [Option.none_or, meantByPreference, named]
      exact again

/-- A default that is written out is the one that its type has anyway, and can be written. -/
theorem Completes.default {valueType : Value} (typed : Table.get? entries "type" = some valueType)
    (writable : ((Table.get? after "default").getD "").isWritable = true) :
    ((Table.get? entries "default").getD "").plain =
      ((Table.get? after "default").getD "").plain ∨
    ((Table.get? entries "default").getD "").plain = "" ∧ ∀ word method,
      valueType = .text word → types.resolve? word = some method →
        ((Table.get? after "default").getD "").plain = method.default.plain ∧
          method.default.isWritable = true := by
  rw [h] at writable ⊢
  cases given : Table.get? entries "default" with
  | some v => exact Or.inl rfl
  | none =>
      refine Or.inr ⟨rfl, fun word method own resolved => ?_⟩
      subst own
      simp only [given, Option.none_or, meantByPreference, typed, resolved] at writable ⊢
      exact ⟨rfl, writable⟩

end preference

/-- The defaults of all types can be written. -/
def DefaultsWritable (types : StorageTable) : Prop :=
  ∀ valueType method, types.resolve? valueType = some method → method.default.isWritable = true

theorem Completes.default_isWritable
    (h : Completes (meantByPreference settings types entries) entries after)
    (defaults : DefaultsWritable types) {valueType : Value}
    (typed : Table.get? entries "type" = some valueType)
    (writable : ((Table.get? entries "default").getD "").isWritable = true) :
    ((Table.get? after "default").getD "").isWritable = true := by
  rw [h]
  cases given : Table.get? entries "default" with
  | some v =>
      rw [given] at writable
      exact writable
  | none =>
      simp only [Option.none_or, meantByPreference, typed]
      cases valueType with
      | text valueType =>
          dsimp only
          cases resolved : types.resolve? valueType with
          | none => exact Value.isWritable_text ""
          | some method => exact defaults valueType method resolved
      | _ => exact Value.isWritable_text ""

theorem Completes.requireWritable_default
    (h : Completes (meantByPreference settings types entries) entries after) {valueType : Value}
    (typed : Table.get? entries "type" = some valueType) :
    ReadAlike (DefaultsWritable types)
      (fun _ _ => ((Table.get? after "default").getD "").isWritable = true)
      (liftM (Value.requireWritable [(Table.get? entries "default").getD ""]) :
        Except Failure Unit)
      (liftM (Value.requireWritable [(Table.get? after "default").getD ""])) := by
  intro u writable
  have writable := requireWritable_eq_ok_iff.mp (mapError_eq_ok_iff.mp writable)
  constructor
  · intro defaults
    have writable' := h.default_isWritable defaults typed (by simpa using writable)
    exact ⟨(), mapError_eq_ok_iff.mpr (requireWritable_eq_ok_iff.mpr (by simpa using writable'))⟩
  · intro u' writable'
    simpa using requireWritable_eq_ok_iff.mp (mapError_eq_ok_iff.mp writable')

theorem preferenceOf_completed (data : Value) :
    ReadAlike (DefaultsWritable types) (Preference.Alike types) (preferenceOf settings file data)
      (preferenceOf settings file (completedPreference settings types data)) := by
  cases data with
  | table entries =>
      have h := completes_preference settings types entries
      rw [completedPreference]
      generalize Table.complete (meantByPreference settings types entries)
        ["key", "getter", "visibility", "setter", "remover", "default"] entries = after at h ⊢
      -- From here on, `h` says all that there is to know of the completed table.
      have line : placeOf file after = placeOf file entries := by
        rw [placeOf, found, h.get?_eq "line" rfl]
        rfl
      simp only [preferenceOf, lift_locationOf, lift_get?, lift_entry, ok_bind, line]
      rw [h.get?_eq "name" rfl, h.get?_eq "type" rfl]
      cases named : Table.get? entries "name" with
      | none => exact readAlike_error _ _
      | some name =>
          cases typed : Table.get? entries "type" with
          | none => exact readAlike_error _ _
          | some valueType =>
              refine .bind_same (congrArg _ (h.getterNameOf_eq named)) fun getter _ => ?_
              refine .bind_same (h.visibilityOf_eq _) fun visibility _ => ?_
              refine (h.requireWritable_default typed).bind fun _ _ _ writable => ?_
              refine .bind_same (h.mutatorOf_eq _ (Or.inl rfl)) fun setter _ => ?_
              refine .bind_same (h.mutatorOf_eq _ (Or.inr rfl)) fun remover _ => ?_
              exact readAlike_ok ⟨rfl, rfl, rfl, rfl, rfl, rfl, (h.orElse_eq named).symm,
                h.default typed writable⟩
  | _ => exact readAlike_error _ _

/-! ### Classes -/

theorem completes_class (settings : Settings) (entries changed : Table) :
    Completes (meantByClass settings entries) changed
      (Table.complete (meantByClass settings entries) ["name", "interface"] changed) := by
  refine completes_complete (fun key other => ?_) changed
  unfold meantByClass
  split <;> first | rfl | simp at other

section classes
variable {f : Value → Value}
  (h : Completes (meantByClass settings entries) (Table.mapEntry "preference" f entries) after)
include h

theorem Completes.get?_class {key : String} (other : key ≠ "preference") :
    Table.get? after key = (Table.get? entries key).or (meantByClass settings entries key) := by
  rw [h, Table.get?_mapEntry, if_neg other]

theorem Completes.get?_class_eq {key : String} (other : key ≠ "preference")
    (nothing : meantByClass settings entries key = none) :
    Table.get? after key = Table.get? entries key := by
  rw [h.get?_class other, nothing, Option.or_none]

theorem Completes.classNameOf_eq {value : Value} {source : TypeRef} {location : Location}
    (given : Table.get? entries "source" = some value)
    (read : sourceOf location value = .ok source) :
    classNameOf settings source (found after "name") =
      classNameOf settings source (found entries "name") := by
  unfold found
  rw [h.get?_class (by decide)]
  cases Table.get? entries "name" with
  | some name => rfl
  | none =>
      cases value with
      | text s =>
          have ref : typeRefOf s = .ok source := by
            cases ref : typeRefOf s with
            | error reason =>
                simp only [sourceOf, ref] at read
                cases read
            | ok found =>
                simp only [sourceOf, ref] at read
                exact congrArg Except.ok (Except.ok.inj read)
          simp only [Option.none_or, meantByClass, given]
          cases suffixed : settings.classSuffix with
          | text suffix =>
              have derived : classNameOf settings source .null =
                  .ok (.text (source.name ++ suffix)) := by
                rw [classNameOf, suffixed]
                rfl
              simp only [ref, Option.getD_some, Option.getD_none]
              rw [derived, classNameOf, suffixed]
              split_ifs <;> rfl
          | _ => rfl
      | _ => cases read

theorem Completes.flagOf_eq (location : Location) :
    flagOf location (.table after) "interface" = flagOf location (.table entries) "interface" := by
  have other : "interface" ≠ "preference" := by decide
  simp only [flagOf, lift_get?, ok_bind, h.get?_class other]
  cases Table.get? entries "interface" <;> rfl

end classes

theorem Completes.preferences_eq {f : Value → Value} (h : Completes
    (meantByClass settings entries) (Table.mapEntry "preference" (eachItem f) entries) after) :
    (Table.get? after "preference").getD (.list []) =
      eachItem f ((Table.get? entries "preference").getD (.list [])) := by
  rw [h.get?_eq "preference" rfl, Table.get?_mapEntry, if_pos rfl, eachItem_getD]

theorem readAlike_toDeclaration {possible : Prop} {draft : Draft} {others : List Preference}
    (alike : List.Forall₂ (Preference.Alike types) draft.preferences others) :
    ReadAlike possible (Declaration.Alike types)
      (draft.toDeclaration.mapError Failure.ofRejection)
      (({ draft with preferences := others } : Draft).toDeclaration.mapError .ofRejection) := by
  have bare : others = [] ↔ draft.preferences = [] := by
    rw [← List.length_eq_zero_iff, ← List.length_eq_zero_iff, alike.length_eq]
  have choice : ({ draft with preferences := others } : Draft).storeChoice = draft.storeChoice :=
    rfl
  unfold Draft.toDeclaration Draft.check
  rw [choice]
  by_cases module : draft.source.module = ""
  · simp only [dif_pos module]
    exact readAlike_error _ _
  · by_cases none : draft.preferences = []
    · simp only [dif_neg module, dif_pos none]
      exact readAlike_error _ _
    · simp only [dif_neg module, dif_neg none, dif_neg (mt bare.mp none)]
      cases draft.storeChoice with
      | error reason => exact readAlike_error _ _
      | ok store => exact readAlike_ok ⟨rfl, rfl, rfl, rfl, rfl, rfl, alike⟩

/-- A class with a source is read alike when its table is completed. -/
theorem classOf_completed {value : Value} {source : TypeRef}
    (h : Completes (meantByClass settings entries)
      (Table.mapEntry "preference" (eachItem (completedPreference settings types)) entries) after)
    (line : placeOf file after = placeOf file entries)
    (given : Table.get? entries "source" = some value)
    (read : sourceOf (placeOf file entries) value = .ok source) :
    ReadAlike (DefaultsWritable types) (Declaration.Alike types)
      (classOf settings file entries source) (classOf settings file after source) := by
  have hook : found after "post_construct" = found entries "post_construct" :=
    congrArg (·.getD .null) (h.get?_class_eq (by decide) rfl)
  have store : found after "store" = found entries "store" :=
    congrArg (·.getD .null) (h.get?_class_eq (by decide) rfl)
  unfold classOf
  simp only [line, hook, store, h.preferences_eq]
  refine .bind_same (congrArg _ (h.classNameOf_eq given read)) fun name _ => ?_
  rw [← bind_assoc, ← bind_assoc]
  refine (readAlike_walk Preference.Alike.refl preferenceOf_completed _).bind
    fun ps qs _ alike => ?_
  refine .bind_same (h.flagOf_eq _) fun isInterface _ => .bind_same rfl fun hook _ => ?_
  exact readAlike_toDeclaration alike

theorem declarationOf_completed (data : Value) :
    ReadAlike (DefaultsWritable types) (Declaration.Alike types)
      (declarationOf settings file data)
      (declarationOf settings file (completedClass settings types data)) := by
  cases data with
  | table entries =>
      have h := completes_class settings entries
        (Table.mapEntry "preference" (eachItem (completedPreference settings types)) entries)
      rw [completedClass]
      generalize Table.complete (meantByClass settings entries) ["name", "interface"]
        (Table.mapEntry "preference" (eachItem (completedPreference settings types)) entries) =
        after at h ⊢
      have line : placeOf file after = placeOf file entries := by
        rw [placeOf, found, h.get?_class_eq (by decide) rfl]
        rfl
      cases given : Table.get? entries "source" with
      | none =>
          simp only [declarationOf, draftOf, lift_locationOf, lift_get?, ok_bind, given]
          exact readAlike_error _ _
      | some value =>
          have given' := (h.get?_class_eq (by decide) rfl).trans given
          rw [declarationOf_eq_bind given, declarationOf_eq_bind given', line]
          exact .bind_same rfl fun source read => classOf_completed h line given read
  | _ => exact readAlike_error _ _

theorem declarations_completed (document : Value) :
    ReadAlike (DefaultsWritable types) (List.Forall₂ (Declaration.Alike types))
      (declarations settings file document)
      (declarations settings file (completed settings types document)) := by
  cases document with
  | table entries =>
      have walked : (Table.get? (Table.mapEntry "class" (eachItem (completedClass settings types))
          entries) "class").getD (.list []) =
          eachItem (completedClass settings types)
            ((Table.get? entries "class").getD (.list [])) := by
        rw [Table.get?_mapEntry, if_pos rfl, eachItem_getD]
      simp only [declarations, completed, lift_get?, ok_bind, walked]
      exact readAlike_walk Declaration.Alike.refl declarationOf_completed _
  | _ => exact readAlike_error _ _

end reading

/-! ### What is generated -/

section generating
variable {settings : Settings} {g : Generator}

/-- The methods of the settings and the standard ones have defaults that can be written. -/
theorem defaultsWritable_of_ofSettings (made : Generator.ofSettings settings = .ok g)
    (writable : ∀ entry ∈ settings.types, entry.2.default.isWritable = true) :
    DefaultsWritable g.table := by
  have standard : ∀ entry ∈ StorageTable.standard.entries, entry.2.default.isWritable = true :=
    fun entry h => Value.isWritable_of_isText (Generator.standard_isTyped entry h).default
  intro valueType method resolved
  obtain ⟨before, after, split, -⟩ := List.lookup_eq_some_iff.mp resolved
  exact Settings.entries_of_storageTable (fun method => method.default.isWritable = true)
    (Generator.storageTable_of_ofSettings made).1 standard writable
    (normalizeType valueType, method) (by simp [split])

/-- **What is left out means what it is documented to mean.**  Whatever a document leaves out may as
well be written out: if both documents are read, their declarations give the same report, or fail
alike.  The completed document is read whenever the first one is, provided that the defaults of the
further types can be written, as every text can. -/
theorem generateAll_completed {file : Option Path} {document : Value} {ds : List Declaration}
    (read : declarations settings file document = .ok ds)
    (made : Generator.ofSettings settings = .ok g) :
    (∀ es, declarations settings file (completed settings g.table document) = .ok es →
      g.generateAll es = g.generateAll ds) ∧
    ((∀ entry ∈ settings.types, entry.2.default.isWritable = true) →
      ∃ es, declarations settings file (completed settings g.table document) = .ok es) := by
  obtain ⟨can, alike⟩ := declarations_completed document ds read
  exact ⟨fun es read' => (Generator.generateAll_eq_of_alike (alike es read')).symm,
    fun writable => can (defaultsWritable_of_ofSettings made writable)⟩

/-- One of the twins with everything written out. -/
example : completedPreference {} StorageTable.standard (.table [("name", "Age"), ("type", "int")]) =
    .table [("name", "Age"), ("type", "int"), ("key", "Age"), ("getter", "get_age"),
      ("visibility", "public"), ("setter", .bool false), ("remover", .bool false),
      ("default", "0")] := by decide +kernel

theorem generateAll_completed_twins :
    ∃ es, declarations {} none (completed {} StorageTable.standard (twinDocument 7)) = .ok es ∧
      ({} : Generator).generateAll es = ({} : Generator).generateAll [twins 7] := by
  have made : Generator.ofSettings {} = .ok {} := rfl
  obtain ⟨same, can⟩ := generateAll_completed (read_twins 7) made
  obtain ⟨es, read⟩ := can nofun
  exact ⟨es, read, same es read⟩

end generating

end Description

end Preferences

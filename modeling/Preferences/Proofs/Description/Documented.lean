import Preferences.Proofs.Description.Derived
import Preferences.Proofs.Description.Reported

/-! # Descriptions with entries of the documented kinds

Names, keys and types are documented to be texts, a setter or remover a truth value, a text or a
table with a name, and a hook a text or a table with a method (`Documented`).  The declarations of a
document that keeps to this have entries of the kinds that they are meant to have, too
(`isTyped_of_documented`). -/

namespace Preferences.Description

/-! ### Documented kinds -/

/-- Under the key there is a text, if anything. -/
def HasText (entries : Table) (key : String) : Prop :=
  ∀ v, Table.get? entries key = some v → v.isText = true

/-- If the value is a table, it has a text under the key. -/
def NamesByText (key : String) : Value → Prop
  | .table entries => HasText entries key
  | _ => True

structure PreferenceDocumented (entries : Table) : Prop where
  texts : ∀ key ∈ ["name", "type", "key", "getter"], HasText entries key
  mutators : ∀ key ∈ ["setter", "remover"], NamesByText "name" (found entries key)

structure ClassDocumented (entries : Table) : Prop where
  texts : ∀ key ∈ ["name", "store"], HasText entries key
  hook : NamesByText "method" (found entries "post_construct")
  preferences : ListsTables PreferenceDocumented entries "preference"

def Documented : Value → Prop
  | .table entries => ListsTables ClassDocumented entries "class"
  | _ => True

section reading
variable {settings : Settings} {file : Option Path} {location : Location} {entries : Table}

theorem found_of_hasText {key : String} (h : HasText entries key) :
    found entries key = .null ∨ (found entries key).isText = true := by
  unfold found
  cases given : Table.get? entries key with
  | none => exact Or.inl rfl
  | some v => exact Or.inr (h v given)

theorem ListsTables.listed {fits : Table → Prop} {key : String} (h : ListsTables fits entries key) :
    ∀ item ∈ listed key (.table entries), ∃ t, item = .table t ∧ fits t := by
  intro item member
  cases given : Table.get? entries key with
  | none =>
      simp [Description.listed, given, Value.elements] at member
  | some v =>
      obtain ⟨tables, rfl, each⟩ := h v given
      simp only [Description.listed, given, Option.getD_some, Value.elements] at member
      obtain ⟨t, ht, rfl⟩ := List.mem_map.mp member
      exact ⟨t, rfl, each t ht⟩

/-! ### Preferences -/

theorem method?_isText_of_mutatorOf {v : Value} {mutator : Mutator} (names : NamesByText "name" v)
    (read : mutatorOf location v = .ok mutator) :
    ∀ m, mutator.method? = some m → m.name.isText = true := by
  intro m declared
  cases v with
  | null =>
      obtain rfl := Except.ok.inj read
      cases declared
  | bool b => cases b <;> obtain rfl := Except.ok.inj read <;> cases declared
  | text name =>
      obtain rfl := Except.ok.inj read
      obtain rfl := Option.some.inj declared
      rfl
  | table entries =>
      rw [mutatorOf] at read
      cases named : Table.get? entries "name" with
      | none =>
          rw [named] at read
          cases read
      | some name =>
          simp only [named] at read
          obtain ⟨visibility, -, made⟩ := bind_eq_ok_iff.mp read
          obtain rfl := Except.ok.inj made
          obtain rfl := Option.some.inj declared
          exact names name named
  | _ => cases read

theorem isText_of_isTruthy {v : Value} (text : v = .null ∨ v.isText = true)
    (truthy : v.isTruthy = true) : v.isText = true := by
  rcases text with rfl | text
  · cases truthy
  · exact text

theorem isText_of_getterNameOf {name given getter : Value}
    (text : given = .null ∨ given.isText = true)
    (read : getterNameOf settings name given = .ok getter) : getter.isText = true := by
  unfold getterNameOf at read
  split_ifs at read with truthy
  · obtain rfl := Except.ok.inj read
    exact isText_of_isTruthy text truthy
  · cases derived : settings.style.suffixOf name with
    | error misuse =>
        rw [derived] at read
        cases read
    | ok suffix =>
        rw [derived] at read
        obtain rfl := Except.ok.inj read
        rfl

theorem entries_of_preferenceOf {p : Preference}
    (read : preferenceOf settings file (.table entries) = .ok p) :
    Table.get? entries "name" = some p.name ∧ Table.get? entries "type" = some p.valueType ∧
      p.key = found entries "key" := by
  simp only [preferenceOf, lift_locationOf, lift_get?, lift_entry, ok_bind] at read
  cases named : Table.get? entries "name" with
  | none =>
      rw [named] at read
      cases read
  | some name =>
      cases typed : Table.get? entries "type" with
      | none =>
          rw [named, typed] at read
          cases read
      | some valueType =>
          simp only [named, typed] at read
          obtain ⟨getter, -, read⟩ := bind_eq_ok_iff.mp read
          obtain ⟨visibility, -, read⟩ := bind_eq_ok_iff.mp read
          obtain ⟨u, -, read⟩ := bind_eq_ok_iff.mp read
          obtain ⟨setter, -, read⟩ := bind_eq_ok_iff.mp read
          obtain ⟨remover, -, read⟩ := bind_eq_ok_iff.mp read
          obtain rfl := Except.ok.inj read
          exact ⟨rfl, rfl, rfl⟩

theorem isTyped_of_preferenceOf {p : Preference} (documented : PreferenceDocumented entries)
    (read : preferenceOf settings file (.table entries) = .ok p) : p.IsTyped := by
  obtain ⟨named, typed, key⟩ := entries_of_preferenceOf read
  obtain ⟨getter, setter, remover, -, -⟩ := preferenceOf_ok read
  refine ⟨documented.texts "name" (by simp) _ named, documented.texts "type" (by simp) _ typed, ?_,
    ?_⟩
  · rw [key]
    exact found_of_hasText (documented.texts "key" (by simp))
  · have mutators : ∀ key ∈ ["setter", "remover"], ∀ {mutator : Mutator},
        mutatorOf (placeOf file entries) (found entries key) = .ok mutator →
        ∀ m, mutator.method? = some m → m.name.isText = true :=
      fun key hk _ read => method?_isText_of_mutatorOf (documented.mutators key hk) read
    simp only [Preference.declaredMethods, List.mem_cons, List.mem_append, Option.mem_toList]
    rintro m (rfl | declared | declared)
    · exact isText_of_getterNameOf (found_of_hasText (documented.texts "getter" (by simp))) getter
    · exact mutators "setter" (by simp) setter m declared
    · exact mutators "remover" (by simp) remover m declared

/-! ### Classes -/

theorem isText_of_classNameOf {source : TypeRef} {given name : Value}
    (text : given = .null ∨ given.isText = true)
    (read : classNameOf settings source given = .ok name) : name.isText = true := by
  unfold classNameOf at read
  split_ifs at read with truthy
  · obtain rfl := Except.ok.inj read
    exact isText_of_isTruthy text truthy
  · cases suffix : settings.classSuffix with
    | text s =>
        rw [suffix] at read
        obtain rfl := Except.ok.inj read
        rfl
    | _ =>
        rw [suffix] at read
        cases read

theorem method_isText_of_hookOf {v : Value} {hook? : Option Hook} (names : NamesByText "method" v)
    (read : hookOf location v = .ok hook?) :
    ∀ hook, hook? = some hook → hook.method.isText = true := by
  intro hook given
  cases v with
  | null =>
      obtain rfl := Except.ok.inj read
      cases given
  | text method =>
      obtain rfl := Except.ok.inj read
      obtain rfl := Option.some.inj given
      rfl
  | table entries =>
      rw [hookOf] at read
      cases named : Table.get? entries "method" with
      | none =>
          rw [named] at read
          cases read
      | some method =>
          simp only [named] at read
          obtain ⟨takesContext, -, made⟩ := bind_eq_ok_iff.mp read
          obtain rfl := Except.ok.inj made
          obtain rfl := Option.some.inj given
          exact names method named
  | _ => cases read

theorem entries_of_toDeclaration {draft : Draft} {d : Declaration}
    (made : draft.toDeclaration = .ok d) :
    d.name = draft.name ∧ d.hook = draft.hook ∧
      (d.store.name = .null ∨ d.store.name = draft.storeName) := by
  have made := mapError_eq_ok_iff.mp made
  unfold Draft.check at made
  split_ifs at made
  cases chosen : draft.storeChoice with
  | error reason =>
      rw [chosen] at made
      cases made
  | ok store =>
      rw [chosen] at made
      obtain rfl := Except.ok.inj made
      refine ⟨rfl, rfl, ?_⟩
      unfold Draft.storeChoice at chosen
      split_ifs at chosen <;> obtain rfl := Except.ok.inj chosen
      · exact Or.inl rfl
      · exact Or.inr rfl

/-- The name, the hook and the store of a class come from its table. -/
theorem entries_of_declarationOf {d : Declaration}
    (read : declarationOf settings file (.table entries) = .ok d) :
    (∃ source, classNameOf settings source (found entries "name") = .ok d.name) ∧
      hookOf (placeOf file entries) (found entries "post_construct") = .ok d.hook ∧
      (d.store.name = .null ∨ d.store.name = found entries "store") := by
  cases given : Table.get? entries "source" with
  | none =>
      simp only [declarationOf, draftOf, lift_locationOf, lift_get?, ok_bind, given] at read
      cases read
  | some value =>
      rw [declarationOf_eq_bind given] at read
      obtain ⟨source, -, read⟩ := bind_eq_ok_iff.mp read
      obtain ⟨name, named, read⟩ := bind_eq_ok_iff.mp read
      rw [← bind_assoc] at read
      obtain ⟨preferences, -, read⟩ := bind_eq_ok_iff.mp read
      obtain ⟨isInterface, -, read⟩ := bind_eq_ok_iff.mp read
      obtain ⟨hook, hooked, made⟩ := bind_eq_ok_iff.mp read
      obtain ⟨same, hook', store⟩ := entries_of_toDeclaration (mapError_eq_ok_iff.mp made)
      rw [same, hook']
      exact ⟨⟨source, mapError_eq_ok_iff.mp named⟩, hooked, store⟩

theorem isTyped_of_declarationOf {d : Declaration} (documented : ClassDocumented entries)
    (read : declarationOf settings file (.table entries) = .ok d) : d.IsTyped := by
  obtain ⟨⟨source, name⟩, hook, store⟩ := entries_of_declarationOf read
  refine ⟨isText_of_classNameOf (found_of_hasText (documented.texts "name" (by simp))) name, ?_, ?_,
    method_isText_of_hookOf documented.hook hook⟩
  · refine forall_of_forall₂ (declarationOf_ok read) documented.preferences.listed ?_
    rintro item p ⟨t, rfl, fits⟩ read
    exact isTyped_of_preferenceOf fits read
  · rcases store with null | same
    · exact Or.inl null
    · rw [same]
      exact found_of_hasText (documented.texts "store" (by simp))

/-- The declarations of a document with entries of the documented kinds have entries of the right
kinds. -/
theorem isTyped_of_documented {document : Value} {ds : List Declaration}
    (documented : Documented document) (read : declarations settings file document = .ok ds) :
    ∀ d ∈ ds, d.IsTyped := by
  cases document with
  | table entries =>
      refine forall_of_forall₂ (declarations_ok read) (ListsTables.listed documented) ?_
      rintro item d ⟨t, rfl, fits⟩ read
      exact isTyped_of_declarationOf fits read
  | _ => cases read

end reading

end Preferences.Description

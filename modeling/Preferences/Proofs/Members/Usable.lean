import Preferences.Proofs.Failure.Computations
import Preferences.Proofs.Generation.MemberNames

/-! # When the accessors of a preference can be made

A preference may carry any values as its name, its key and the names of its methods.  Its accessors
are made exactly if the names that have to be derived come from a text (`Preference.IsNamed`) and
everything that is written into them can be written (`accessors_isOk_iff`); they have the names
`Preference.accessorNames`.  Both hold of a preference whose entries have the kinds that they are
meant to have (`Preference.IsTyped`). -/

namespace Preferences

open Naming (Style)

namespace Preference

/-- The names that the preference needs can be derived: a setter needs one for its parameter, and a
remover one for itself unless it is declared. -/
def IsNamed (p : Preference) : Prop :=
  p.name.isText = true ∨ p.setter.isGenerated = false ∧
    (p.remover.isGenerated = true → p.remover.method?.isSome = true)

/-- The values that are written into the accessors. -/
def writtenValues (p : Preference) (method : StorageMethod) : List Value :=
  Members.getterValues p method ++ if p.setter.isGenerated then [method.put] else []

def accessorNames (style : Style) (p : Preference) : List Value :=
  p.getter.name ::
    ((if p.setter.isGenerated then (p.setter.methodName? style "set" p).toList else []) ++
      if p.remover.isGenerated then (p.remover.methodName? style "remove" p).toList else [])

/-- The entries have the kinds that they are meant to have: the name, the type and the names of
declared methods are texts, and so is the key if there is one. -/
structure IsTyped (p : Preference) : Prop where
  name : p.name.isText = true
  valueType : p.valueType.isText = true
  key : p.key = .null ∨ p.key.isText = true
  declared : ∀ m ∈ p.declaredMethods, m.name.isText = true

end Preference

structure StorageMethod.IsTyped (method : StorageMethod) : Prop where
  get : method.get.isText = true
  put : method.put.isText = true
  default : method.default.isText = true

namespace Value

theorem isWritable_of_isText {v : Value} (h : v.isText = true) : v.isWritable = true := by
  cases v with
  | text s => exact isWritable_text s
  | _ => cases h

end Value

namespace Members

variable {style : Style} {p : Preference} {valueType : String} {method : StorageMethod}

/-! ### What has to be given -/

theorem suffixOf_isOk_iff {name : Value} :
    (∃ suffix, style.suffixOf name = .ok suffix) ↔ name.isText = true := by
  cases name with
  | text name => exact ⟨fun _ => rfl, fun _ => ⟨_, rfl⟩⟩
  | _ => simp [Style.suffixOf, Value.isText]

theorem parameterName_isOk_iff :
    (∃ parameter, parameterName style p = .ok parameter) ↔ p.name.isText = true := by
  unfold parameterName
  cases p.name with
  | text name => exact ⟨fun _ => rfl, fun _ => ⟨_, rfl⟩⟩
  | _ => simp [Style.variableOf, Value.isText, Except.map]

theorem identity_isOk_iff {mutator : Mutator} {stem : String} :
    (∃ known, identity style mutator stem p = .ok known) ↔
      mutator.method?.isSome = true ∨ p.name.isText = true := by
  unfold identity
  cases mutator.method? with
  | some m => simp
  | none =>
      cases p.name with
      | text name => exact ⟨fun _ => Or.inr rfl, fun _ => ⟨_, rfl⟩⟩
      | _ => simp [Style.suffixOf, Value.isText, Except.map]

theorem setter_isOk_iff : (∃ m, setter style p valueType method = .ok m) ↔
    p.name.isText = true ∧ [method.put, p.storageKey].all Value.isWritable = true := by
  have steps : (∃ m, setter style p valueType method = .ok m) ↔
      (∃ known, identity style p.setter "set" p = .ok known) ∧
        (∃ parameter, parameterName style p = .ok parameter) ∧
          ∃ u, Value.requireWritable [method.put, p.storageKey] = .ok u :=
    bind_isOk_iff fun _ _ => bind_isOk_iff fun _ _ => bind_pure_isOk_iff
  rw [steps, identity_isOk_iff, parameterName_isOk_iff, requireWritable_isOk_iff]
  exact ⟨And.right, fun h => ⟨Or.inr h.1, h⟩⟩

theorem remover_isOk_iff : (∃ m, remover style p = .ok m) ↔
    (p.remover.method?.isSome = true ∨ p.name.isText = true) ∧ p.storageKey.isWritable = true := by
  have steps : (∃ m, remover style p = .ok m) ↔
      (∃ known, identity style p.remover "remove" p = .ok known) ∧
        ∃ u, Value.requireWritable [p.storageKey] = .ok u :=
    bind_isOk_iff fun _ _ => bind_pure_isOk_iff
  rw [steps, identity_isOk_iff, requireWritable_isOk_iff, List.all_cons, List.all_nil,
    Bool.and_true]

theorem optional_isOk_iff {asked : Bool} {made : Except Misuse MethodDef} :
    (∃ methods, optional asked made = .ok methods) ↔ (asked = true → ∃ m, made = .ok m) := by
  unfold optional
  cases asked with
  | false => simp
  | true => cases made <;> simp [Except.map]

/-! ### What is made of it -/

/-- The accessors of a preference are made exactly if their names can be derived and all that they
hold can be written. -/
theorem accessors_isOk_iff : (∃ group, accessors style p valueType method = .ok group) ↔
    p.IsNamed ∧ (p.writtenValues method).all Value.isWritable = true := by
  have steps : (∃ group, accessors style p valueType method = .ok group) ↔
      (∃ u, Value.requireWritable (getterValues p method) = .ok u) ∧
        (∃ setters,
          optional p.setter.isGenerated (setter style p valueType method) = .ok setters) ∧
          ∃ removers, optional p.remover.isGenerated (remover style p) = .ok removers := by
    rw [accessors_eq]
    exact bind_isOk_iff fun _ _ => bind_isOk_iff fun _ _ => bind_pure_isOk_iff
  rw [steps, requireWritable_isOk_iff, optional_isOk_iff, optional_isOk_iff, setter_isOk_iff,
    remover_isOk_iff, Preference.writtenValues, List.all_append, Bool.and_eq_true]
  have key : p.storageKey ∈ getterValues p method := by simp [getterValues]
  constructor
  · rintro ⟨writable, set, removed⟩
    refine ⟨?_, writable, ?_⟩
    · by_cases text : p.name.isText = true
      · exact Or.inl text
      · exact Or.inr ⟨Bool.eq_false_iff.mpr fun asked => text (set asked).1,
          fun asked => (removed asked).1.resolve_right text⟩
    · split_ifs with asked
      · have written := (set asked).2
        simp_all
      · rfl
  · rintro ⟨named, writable, put⟩
    have writable_key : p.storageKey.isWritable = true := List.all_eq_true.mp writable _ key
    refine ⟨writable, fun asked => ⟨?_, ?_⟩,
      fun asked => ⟨named.symm.imp (fun h => h.2 asked) id, writable_key⟩⟩
    · rcases named with text | ⟨unset, -⟩
      · exact text
      · rw [asked] at unset
        cases unset
    · rw [if_pos asked] at put
      simp_all

theorem IsGroup.names {group : List MethodDef} (h : IsGroup style p valueType method group) :
    group.map (·.name) = p.accessorNames style := by
  obtain ⟨getter, setters, removers, rfl, is_getter, set, removed⟩ := h
  rw [Preference.accessorNames, List.map_cons, List.map_append, is_getter.name]
  congr 2
  · split_ifs at set ⊢
    · obtain ⟨setter, rfl, is_setter⟩ := set
      rw [is_setter.methodName?]
      rfl
    · rw [set]
      rfl
  · split_ifs at removed ⊢
    · obtain ⟨remover, rfl, is_remover⟩ := removed
      rw [is_remover.methodName?]
      rfl
    · rw [removed]
      rfl

end Members

/-! ### Preferences of the right kinds -/

namespace Preference.IsTyped

variable {p : Preference} {style : Style} {method : StorageMethod}

theorem isNamed (h : p.IsTyped) : p.IsNamed := Or.inl h.name

theorem isText_storageKey (h : p.IsTyped) : p.storageKey.isText = true := by
  unfold Preference.storageKey Value.orElse
  split_ifs with own
  · rcases h.key with null | text
    · rw [null] at own
      cases own
    · exact text
  · exact h.name

theorem isWritable_writtenValues (h : p.IsTyped) (stored : method.IsTyped) :
    (p.writtenValues method).all Value.isWritable = true := by
  have writable : ∀ v ∈ [method.get, method.put, method.default, p.storageKey],
      v.isWritable = true := by
    intro v hv
    refine Value.isWritable_of_isText ?_
    simp only [List.mem_cons, List.not_mem_nil, or_false] at hv
    rcases hv with rfl | rfl | rfl | rfl
    exacts [stored.get, stored.put, stored.default, h.isText_storageKey]
  rw [List.all_eq_true]
  intro v hv
  refine writable v ?_
  unfold Preference.writtenValues Members.getterValues at hv
  split_ifs at hv <;> simp at hv ⊢ <;> tauto

theorem isText_accessorNames (h : p.IsTyped) :
    ∀ name ∈ p.accessorNames style, name.isText = true := by
  have mutators : ∀ {mutator : Mutator} {stem : String} {name : Value},
      (∀ m, mutator.method? = some m → m ∈ p.declaredMethods) →
      mutator.methodName? style stem p = some name → name.isText = true := by
    intro mutator stem name known named
    unfold Mutator.methodName? at named
    split at named
    · next m declared =>
        obtain rfl := Option.some.inj named
        exact h.declared m (known m declared)
    · obtain rfl := Option.some.inj named
      rfl
    · cases named
  intro name hn
  rcases List.mem_cons.mp hn with rfl | hn
  · exact h.declared p.getter List.mem_cons_self
  · rcases List.mem_append.mp hn with hn | hn
    · split_ifs at hn
      · exact mutators (fun m known => by simp [declaredMethods, known]) (Option.mem_toList.mp hn)
      · cases hn
    · split_ifs at hn
      · exact mutators (fun m known => by simp [declaredMethods, known]) (Option.mem_toList.mp hn)
      · cases hn

end Preference.IsTyped

end Preferences

import Preferences.Proofs.Generation.Wiring
import Preferences.Proofs.Store.TextKeyed

/-! # The names of the members of a generated class

The fields, the nested class and the methods of a generated class share one namespace.  The methods
have different names because generation sees to it, and so have the fields and the nested class,
which are the same in every class (`Members.reservedNames`).  A name that is derived for a setter or
remover is never one of those; a declared name can be, and nothing refuses it.  So the names of all
members differ exactly if no declared name is reserved (`generate_members_differ_iff`). -/

namespace Preferences

/-- The names of all members of a class: of its fields, its nested classes and its methods. -/
def ClassDef.memberNames (c : ClassDef) : List Value :=
  c.fields.map (Value.text ·.name) ++ c.types.map (·.name) ++ c.methods.map (·.name)

def Preference.declaredMethods (p : Preference) : List DeclaredMethod :=
  p.getter :: (p.setter.method?.toList ++ p.remover.method?.toList)

namespace Members

/-- The names of the fields and of the nested class, which are the same in every generated class. -/
def reservedNames : List Value :=
  [instanceField, lockField, storeField, transactionField, transactionClass].map Value.text

theorem isText_of_mem_reservedNames {name : Value} (h : name ∈ reservedNames) :
    name.isText = true := by
  obtain ⟨_, -, rfl⟩ := List.mem_map.mp h
  rfl

theorem reservedNames_pairwise :
    reservedNames.Pairwise fun name other => name.same other = false := by
  have nodup : reservedNames.Nodup := by decide
  refine List.Pairwise.imp_of_mem (fun {name other} reserved _ ne => ?_) nodup
  rw [Value.same_eq_decide_left (isText_of_mem_reservedNames reserved)]
  exact decide_eq_false ne

theorem fixed_not_mem_reservedNames :
    ∀ name ∈ ["get_instance", "__init__", "clear", "begin_transaction"],
      Value.text name ∉ reservedNames := by
  decide

theorem derived_not_mem_reservedNames {stem : String} (h : stem = "set" ∨ stem = "remove")
    (suffix : String) : Value.text (stem ++ suffix) ∉ reservedNames := by
  intro member
  obtain ⟨name, known, same⟩ := List.mem_map.mp member
  have first : name.toList.head? = (stem ++ suffix).toList.head? :=
    congrArg (·.toList.head?) (Value.text.inj same)
  have heads : ∀ name ∈ [instanceField, lockField, storeField, transactionField, transactionClass],
      name.toList.head? = some '_' ∨ name.toList.head? = some 'T' := by
    decide
  rw [String.toList_append] at first
  rcases h with rfl | rfl <;> rcases heads name known with head | head <;>
    · rw [head] at first
      cases first

end Members

open Members

section named
variable {mutator : Mutator} {style : Naming.Style} {stem : String} {p : Preference} {name : Value}

/-- A setter or remover has a reserved name only if that name is declared. -/
theorem Mutator.methodName?_eq_some_iff (h : stem = "set" ∨ stem = "remove")
    (reserved : name ∈ reservedNames) :
    mutator.methodName? style stem p = some name ↔
      ∃ m, mutator.method? = some m ∧ m.name = name := by
  unfold Mutator.methodName?
  cases declared : mutator.method? with
  | some known => simp
  | none =>
      simp only [reduceCtorEq, false_and, exists_false, iff_false]
      cases p.name with
      | text given =>
          intro same
          rw [← Option.some.inj same] at reserved
          exact derived_not_mem_reservedNames h _ reserved
      | _ => nofun

end named

theorem Mutator.isGenerated_of_method? {mutator : Mutator} {m : DeclaredMethod}
    (h : mutator.method? = some m) : mutator.isGenerated = true := by
  cases mutator with
  | declared => rfl
  | _ => cases h

namespace Generator

variable {g : Generator} {d : Declaration} {c : ClassDef} {p : Preference}

/-- What belongs to a preference has a reserved name only if that name is declared for it. -/
theorem Belongs.declared {m : MethodDef} (h : g.Belongs p m) (reserved : m.name ∈ reservedNames) :
    ∃ declared ∈ p.declaredMethods, declared.name = m.name := by
  obtain ⟨_, _, -, is_getter | ⟨-, is_setter⟩ | ⟨-, is_remover⟩⟩ := h
  · exact ⟨p.getter, List.mem_cons_self, is_getter.name.symm⟩
  · obtain ⟨known, declared, same⟩ :=
      (Mutator.methodName?_eq_some_iff (Or.inl rfl) reserved).mp is_setter.methodName?
    exact ⟨known, by simp [Preference.declaredMethods, declared], same⟩
  · obtain ⟨known, declared, same⟩ :=
      (Mutator.methodName?_eq_some_iff (Or.inr rfl) reserved).mp is_remover.methodName?
    exact ⟨known, by simp [Preference.declaredMethods, declared], same⟩

theorem Accesses.exists_declared {group : List MethodDef} (h : g.Accesses p group)
    {declared : DeclaredMethod} (hm : declared ∈ p.declaredMethods) :
    ∃ m ∈ group, m.name = declared.name := by
  obtain ⟨valueType, method, -, is_group⟩ := h
  rcases List.mem_cons.mp hm with rfl | hm
  · obtain ⟨m, hm, is_getter⟩ := is_group.exists_getter
    exact ⟨m, hm, is_getter.name⟩
  · rcases List.mem_append.mp hm with hm | hm
    · have known := Option.mem_toList.mp hm
      obtain ⟨m, hm, is_setter⟩ := is_group.exists_setter (Mutator.isGenerated_of_method? known)
      have named := is_setter.methodName?
      rw [Mutator.methodName?, known] at named
      exact ⟨m, hm, (Option.some.inj named).symm⟩
    · have known := Option.mem_toList.mp hm
      obtain ⟨m, hm, is_remover⟩ := is_group.exists_remover (Mutator.isGenerated_of_method? known)
      have named := is_remover.methodName?
      rw [Mutator.methodName?, known] at named
      exact ⟨m, hm, (Option.some.inj named).symm⟩

/-- A method has a reserved name exactly if that name is declared for a preference. -/
theorem exists_method_reserved_iff (h : g.generate d = .ok c) {name : Value}
    (reserved : name ∈ reservedNames) :
    (∃ m ∈ c.methods, m.name = name) ↔
      ∃ p ∈ d.preferences, ∃ declared ∈ p.declaredMethods, declared.name = name := by
  obtain ⟨groups, each, methods⟩ := generate_groups h
  rw [methods]
  constructor
  · rintro ⟨m, hm, rfl⟩
    rw [List.cons_append, List.mem_cons, List.mem_append] at hm
    rcases hm with rfl | hm | hm
    · exact absurd reserved (fixed_not_mem_reservedNames "get_instance" (by simp))
    · obtain ⟨group, hg, hm⟩ := List.mem_flatten.mp hm
      obtain ⟨i, hi, rfl⟩ := List.getElem_of_mem hg
      obtain ⟨lengths, accesses⟩ := List.forall₂_iff_get.mp each
      have own : i < d.preferences.length := lengths ▸ hi
      have belongs := (accesses i own hi).belongs m hm
      exact ⟨_, List.getElem_mem own, belongs.declared reserved⟩
    · simp only [List.mem_cons, List.not_mem_nil, or_false] at hm
      rcases hm with rfl | rfl | rfl
      · exact absurd reserved (fixed_not_mem_reservedNames "__init__" (by simp))
      · exact absurd reserved (fixed_not_mem_reservedNames "clear" (by simp))
      · exact absurd reserved (fixed_not_mem_reservedNames "begin_transaction" (by simp))
  · rintro ⟨p, hp, declared, hd, rfl⟩
    obtain ⟨group, hg, accesses⟩ := exists_group each hp
    obtain ⟨m, hm, same⟩ := accesses.exists_declared hd
    refine ⟨m, ?_, same⟩
    rw [List.cons_append]
    exact List.mem_cons_of_mem _ (List.mem_append_left _ (List.mem_flatten.mpr ⟨group, hg, hm⟩))

theorem memberNames_of_generate (h : g.generate d = .ok c) :
    c.memberNames = reservedNames ++ c.methods.map (·.name) := by
  obtain ⟨methods, -, -, rfl⟩ := generate_ok h
  rfl

/-- Two members have the same name only where a method has a reserved one. -/
theorem memberNames_pairwise_iff (h : g.generate d = .ok c) :
    (c.memberNames.Pairwise fun name other => name.same other = false) ↔
      ∀ m ∈ c.methods, m.name ∉ reservedNames := by
  rw [memberNames_of_generate h, List.pairwise_append]
  constructor
  · rintro ⟨-, -, apart⟩ m hm reserved
    have differ := apart _ reserved _ (List.mem_map_of_mem hm)
    rw [Value.same_self] at differ
    cases differ
  · intro free
    refine ⟨reservedNames_pairwise, generate_names_different h, fun name reserved other ho => ?_⟩
    obtain ⟨m, hm, rfl⟩ := List.mem_map.mp ho
    rw [Value.same_eq_decide_left (isText_of_mem_reservedNames reserved), decide_eq_false_iff_not]
    rintro rfl
    exact free m hm reserved

/-- In a generated class the fields and the nested class have the reserved names, which are
different, and no two methods have the same name.  A method has a reserved name exactly if that name
is declared for a preference as the name of its getter, setter or remover, so the names of all
members are different exactly if no declared name is reserved. -/
theorem generate_members_differ_iff (h : g.generate d = .ok c) :
    c.fields.map (Value.text ·.name) ++ c.types.map (·.name) = reservedNames ∧
    (reservedNames.Pairwise fun name other => name.same other = false) ∧
    ((c.methods.map (·.name)).Pairwise fun name other => name.same other = false) ∧
    (∀ name ∈ reservedNames, (∃ m ∈ c.methods, m.name = name) ↔
      ∃ p ∈ d.preferences, ∃ declared ∈ p.declaredMethods, declared.name = name) ∧
    ((c.memberNames.Pairwise fun name other => name.same other = false) ↔
      ∀ p ∈ d.preferences, ∀ declared ∈ p.declaredMethods, declared.name ∉ reservedNames) := by
  have hidden : ∀ name ∈ reservedNames, (∃ m ∈ c.methods, m.name = name) ↔
      ∃ p ∈ d.preferences, ∃ declared ∈ p.declaredMethods, declared.name = name :=
    fun _ reserved => exists_method_reserved_iff h reserved
  refine ⟨List.append_cancel_right (memberNames_of_generate h), reservedNames_pairwise,
    generate_names_different h, hidden, ?_⟩
  rw [memberNames_pairwise_iff h]
  constructor
  · intro free p hp declared hd reserved
    obtain ⟨m, hm, same⟩ := (hidden _ reserved).mpr ⟨p, hp, declared, hd, rfl⟩
    exact free m hm (same ▸ reserved)
  · intro free m hm reserved
    obtain ⟨p, hp, declared, hd, same⟩ := (hidden _ reserved).mp ⟨m, hm, rfl⟩
    exact free p hp declared hd (same ▸ reserved)

/-- A class with one preference that is set by a method of this name. -/
def settingBy (setter : String) : Declaration where
  source := ⟨"config", "Settings"⟩
  name := "SettingsImpl"
  preferences := [{
    name := "age", valueType := "int", getter := { name := "get_age" }
    setter := .declared { name := setter }, remover := .derived }]
  isInterface := false
  store := .default
  hook := none
  location := none
  source_module_ne := by decide
  preferences_ne := List.cons_ne_nil _ _

theorem generate_members_differ_iff_settingBy :
    ∃ c, ({} : Generator).generate (settingBy "change_age") = .ok c ∧
      c.memberNames.Pairwise fun name other => name.same other = false := by
  obtain ⟨c, made⟩ := exists_ok_of_isSome
    (show (({} : Generator).generate (settingBy "change_age")).toOption.isSome = true by
      decide +kernel)
  exact ⟨c, made, (generate_members_differ_iff made).2.2.2.2.mpr (by decide)⟩

/-- A class that is generated although its setter hides the field for the open transaction. -/
theorem members_share_name :
    ∃ c, ({} : Generator).generate (settingBy "_current_transaction") = .ok c ∧
      (∃ f ∈ c.fields, ∃ m ∈ c.methods, m.name = .text f.name) ∧
      ¬ c.memberNames.Pairwise fun name other => name.same other = false := by
  obtain ⟨c, made⟩ := exists_ok_of_isSome
    (show (({} : Generator).generate (settingBy "_current_transaction")).toOption.isSome = true by
      decide +kernel)
  have reserved : Value.text transactionField ∈ reservedNames := by decide
  obtain ⟨m, hm, named⟩ := (exists_method_reserved_iff made reserved).mpr
    ⟨_, List.mem_cons_self, _, List.mem_cons_of_mem _ List.mem_cons_self, rfl⟩
  obtain ⟨f, hf, field⟩ : ∃ f ∈ c.fields, f.name = transactionField := by
    obtain ⟨methods, -, -, rfl⟩ := generate_ok made
    exact ⟨_, List.getLast_mem (List.cons_ne_nil _ _), rfl⟩
  refine ⟨c, made, ⟨f, hf, m, hm, field ▸ named⟩, fun differ => ?_⟩
  exact (memberNames_pairwise_iff made).mp differ m hm (named ▸ reserved)

end Generator

end Preferences

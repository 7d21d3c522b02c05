import Preferences.Proofs.Generation.Assembly
import Preferences.Proofs.Members.Accessors
import Preferences.Proofs.Value.SameSelf

/-! # Every preference has its own accessors

A generated class has, for each preference in its order, a getter and the setter and the remover
that are asked for, each wired to the key and the type of that preference; it is found under its
name, and nothing else in the class reads or changes a preference (`generate_wired`).  Looking a
method up by its name finds the right one because no name is repeated (`method?_of_mem`); for the
same reason no method belongs to two preferences (`belongs_unique`). -/

namespace Preferences

theorem ClassDef.method?_of_mem {c : ClassDef} {m : MethodDef}
    (different : (c.methods.map (·.name)).Pairwise fun name other => name.same other = false)
    (hm : m ∈ c.methods) : c.method? m.name = some m := by
  obtain ⟨before, after, split⟩ := List.append_of_mem hm
  rw [List.pairwise_map, split, List.pairwise_append] at different
  rw [method?, List.find?_eq_some_iff_append]
  refine ⟨m.name.same_self, before, after, split, fun other ho => ?_⟩
  simp [different.2.2 other ho m List.mem_cons_self]

namespace Generator

open Members

variable {g : Generator} {d : Declaration} {c : ClassDef} {p : Preference}

/-- The preference has this type, which is stored by this method. -/
structure Stores (g : Generator) (p : Preference) (valueType : String)
    (method : StorageMethod) : Prop where
  typed : p.valueType = .text valueType
  found : g.table.resolve? valueType = some method

/-- The method is an accessor of the preference. -/
def Belongs (g : Generator) (p : Preference) (m : MethodDef) : Prop :=
  ∃ valueType method, g.Stores p valueType method ∧
    (IsGetter p valueType method m ∨
      p.setter.isGenerated = true ∧ IsSetter g.style p valueType method m ∨
      p.remover.isGenerated = true ∧ IsRemover g.style p m)

/-- The methods are the accessors of the preference, in order. -/
def Accesses (g : Generator) (p : Preference) (group : List MethodDef) : Prop :=
  ∃ valueType method, g.Stores p valueType method ∧ IsGroup g.style p valueType method group

/-! ### One preference -/

section group
variable {group : List MethodDef} {m : MethodDef}

theorem Belongs.isAccessor (h : g.Belongs p m) : m.isAccessor = true := by
  obtain ⟨_, _, -, is_getter | ⟨-, is_setter⟩ | ⟨-, is_remover⟩⟩ := h
  · simp [MethodDef.isAccessor, is_getter.kind]
  · simp [MethodDef.isAccessor, is_setter.kind]
  · simp [MethodDef.isAccessor, is_remover.kind]

theorem Accesses.belongs (h : g.Accesses p group) : ∀ m ∈ group, g.Belongs p m := by
  obtain ⟨valueType, method, stores, getter, setters, removers, rfl, is_getter, set, removed⟩ := h
  refine List.forall_mem_cons.mpr ⟨⟨_, _, stores, Or.inl is_getter⟩, ?_⟩
  intro m hm
  rcases List.mem_append.mp hm with hm | hm
  · split_ifs at set with asked
    · obtain ⟨setter, rfl, is_setter⟩ := set
      obtain rfl := List.mem_singleton.mp hm
      exact ⟨_, _, stores, Or.inr (Or.inl ⟨asked, is_setter⟩)⟩
    · rw [set] at hm
      cases hm
  · split_ifs at removed with asked
    · obtain ⟨remover, rfl, is_remover⟩ := removed
      obtain rfl := List.mem_singleton.mp hm
      exact ⟨_, _, stores, Or.inr (Or.inr ⟨asked, is_remover⟩)⟩
    · rw [removed] at hm
      cases hm

theorem Accesses.exists_name (h : g.Accesses p group) (hm : g.Belongs p m) :
    ∃ own ∈ group, own.name = m.name := by
  obtain ⟨valueType, method, -, is_group⟩ := h
  obtain ⟨_, _, -, is_getter | ⟨asked, is_setter⟩ | ⟨asked, is_remover⟩⟩ := hm
  · obtain ⟨own, ho, own_getter⟩ := is_group.exists_getter
    exact ⟨own, ho, own_getter.name.trans is_getter.name.symm⟩
  · obtain ⟨own, ho, own_setter⟩ := is_group.exists_setter asked
    exact ⟨own, ho, Option.some.inj (own_setter.methodName?.symm.trans is_setter.methodName?)⟩
  · obtain ⟨own, ho, own_remover⟩ := is_group.exists_remover asked
    exact ⟨own, ho, Option.some.inj (own_remover.methodName?.symm.trans is_remover.methodName?)⟩

end group

/-! ### The whole class -/

/-- The methods of a class are the accessors of its preferences, group by group, and four others. -/
theorem generate_groups (h : g.generate d = .ok c) :
    ∃ groups, List.Forall₂ g.Accesses d.preferences groups ∧
      c.methods = getInstance d.name.plain :: groups.flatten ++
        [constructor d, clear, beginTransaction d.name.plain] := by
  obtain ⟨methods, made, -, rfl⟩ := generate_ok h
  obtain ⟨resolved, groups, each, accessors, methods_eq⟩ := methods_ok made
  refine ⟨groups, ?_, methods_eq⟩
  clear made methods_eq h
  generalize d.preferences = preferences at each
  induction each generalizing groups with
  | nil =>
      obtain rfl := List.forall₂_nil_left_iff.mp accessors
      exact .nil
  | cons resolves _ ih =>
      obtain ⟨group, rest, first, later, rfl⟩ := List.forall₂_cons_left_iff.mp accessors
      obtain ⟨rfl, typed, found⟩ := resolve_ok resolves
      exact .cons ⟨_, _, ⟨typed, found⟩, accessors_ok first⟩ (ih _ later)

section groups
variable {preferences : List Preference} {groups : List (List MethodDef)}

theorem exists_group (each : List.Forall₂ g.Accesses preferences groups)
    (hp : p ∈ preferences) : ∃ group ∈ groups, g.Accesses p group := by
  induction each with
  | nil => cases hp
  | @cons first group _ _ accesses _ ih =>
      rcases List.mem_cons.mp hp with rfl | hp
      · exact ⟨group, List.mem_cons_self, accesses⟩
      · obtain ⟨group, hg, accesses⟩ := ih hp
        exact ⟨group, List.mem_cons_of_mem _ hg, accesses⟩

theorem isAccessor_of_mem_groups (each : List.Forall₂ g.Accesses preferences groups) :
    ∀ m ∈ groups.flatten, m.isAccessor = true := by
  induction each with
  | nil => simp
  | cons accesses _ ih =>
      rw [List.flatten_cons, List.forall_mem_append]
      exact ⟨fun m hm => (accesses.belongs m hm).isAccessor, ih⟩

theorem belongs_unique (each : List.Forall₂ g.Accesses preferences groups)
    (different : groups.Pairwise fun first second => ∀ m ∈ first, ∀ other ∈ second,
      m.name.same other.name = false)
    {m : MethodDef} {i j : Nat} (hi : i < preferences.length) (hj : j < preferences.length)
    (own : g.Belongs preferences[i] m) (other : g.Belongs preferences[j] m) : ¬i < j := by
  intro lt
  obtain ⟨lengths, each⟩ := List.forall₂_iff_get.mp each
  obtain ⟨first, hf, same⟩ := (each i hi (lengths ▸ hi)).exists_name own
  obtain ⟨second, hs, same'⟩ := (each j hj (lengths ▸ hj)).exists_name other
  have apart := List.pairwise_iff_getElem.mp different i j (lengths ▸ hi) (lengths ▸ hj) lt
    first hf second hs
  rw [same, same', m.name.same_self] at apart
  cases apart

theorem existsUnique_belongs (each : List.Forall₂ g.Accesses preferences groups)
    (different : groups.Pairwise fun first second => ∀ m ∈ first, ∀ other ∈ second,
      m.name.same other.name = false)
    {m : MethodDef} (hm : m ∈ groups.flatten) :
    ∃! i : Fin preferences.length, g.Belongs preferences[i] m := by
  obtain ⟨group, hg, hm⟩ := List.mem_flatten.mp hm
  obtain ⟨i, hi, rfl⟩ := List.getElem_of_mem hg
  have own : i < preferences.length := each.length_eq ▸ hi
  have belongs := ((List.forall₂_iff_get.mp each).2 i own hi).belongs m hm
  refine ⟨⟨i, own⟩, belongs, fun j other => Fin.ext ?_⟩
  rcases Nat.lt_trichotomy j i with lt | same | lt
  · exact absurd lt (belongs_unique each different j.isLt own other belongs)
  · exact same
  · exact absurd lt (belongs_unique each different own j.isLt belongs other)

/-- The methods that read or change a preference are those of the groups. -/
theorem filter_isAccessor (each : List.Forall₂ g.Accesses preferences groups)
    (methods : c.methods = getInstance d.name.plain :: groups.flatten ++
      [constructor d, clear, beginTransaction d.name.plain]) :
    c.methods.filter MethodDef.isAccessor = groups.flatten := by
  have others : [constructor d, clear, beginTransaction d.name.plain].filter
      MethodDef.isAccessor = [] := rfl
  rw [methods, List.cons_append, List.filter_cons_of_neg Bool.false_ne_true, List.filter_append,
    List.filter_eq_self.mpr (isAccessor_of_mem_groups each), others, List.append_nil]

end groups

/-- Each preference of a generated class has its getter and, where they are asked for, its setter
and its remover, which are found under their names; and the methods that read or change a preference
are these and no others, group by group in the order of the preferences, so that each belongs to
exactly one of them. -/
theorem generate_wired (h : g.generate d = .ok c) :
    (∀ p ∈ d.preferences, ∃ valueType method, g.Stores p valueType method ∧
      (∃ m, c.method? p.getter.name = some m ∧ IsGetter p valueType method m) ∧
      (p.setter.isGenerated = true → ∃ name m, p.setter.methodName? g.style "set" p = some name ∧
        c.method? name = some m ∧ IsSetter g.style p valueType method m) ∧
      (p.remover.isGenerated = true → ∃ name m,
        p.remover.methodName? g.style "remove" p = some name ∧
        c.method? name = some m ∧ IsRemover g.style p m)) ∧
    (∃ groups, c.methods.filter MethodDef.isAccessor = groups.flatten ∧
      List.Forall₂ g.Accesses d.preferences groups) ∧
    ∀ m ∈ c.methods, m.isAccessor = true →
      ∃! i : Fin d.preferences.length, g.Belongs d.preferences[i] m := by
  obtain ⟨groups, each, methods⟩ := generate_groups h
  have different := generate_names_different h
  have filtered := filter_isAccessor each methods
  have found : ∀ {group m}, group ∈ groups → m ∈ group → c.method? m.name = some m := by
    intro group m hg hm
    refine ClassDef.method?_of_mem different (List.mem_of_mem_filter (p := MethodDef.isAccessor) ?_)
    rw [filtered]
    exact List.mem_flatten_of_mem hg hm
  refine ⟨?_, ⟨groups, filtered, each⟩, ?_⟩
  · intro p hp
    obtain ⟨group, hg, valueType, method, stores, is_group⟩ := exists_group each hp
    refine ⟨valueType, method, stores, ?_, ?_, ?_⟩
    · obtain ⟨m, hm, is_getter⟩ := is_group.exists_getter
      rw [← is_getter.name]
      exact ⟨m, found hg hm, is_getter⟩
    · intro asked
      obtain ⟨m, hm, is_setter⟩ := is_group.exists_setter asked
      exact ⟨m.name, m, is_setter.methodName?, found hg hm, is_setter⟩
    · intro asked
      obtain ⟨m, hm, is_remover⟩ := is_group.exists_remover asked
      exact ⟨m.name, m, is_remover.methodName?, found hg hm, is_remover⟩
  · intro m hm accessor
    have apart : groups.Pairwise fun first second => ∀ m ∈ first, ∀ other ∈ second,
        m.name.same other.name = false := by
      rw [methods, List.pairwise_map, List.pairwise_append, List.pairwise_cons,
        List.pairwise_flatten] at different
      exact different.1.2.2
    exact existsUnique_belongs each apart (filtered ▸ List.mem_filter.mpr ⟨hm, accessor⟩)

/-- A class with one preference that can be read, set and removed. -/
def ageClass : Declaration where
  source := ⟨"app", "Settings"⟩
  name := "SettingsImpl"
  preferences := [{
    name := "Age", valueType := "int", getter := { name := "getAge" }, key := "age"
    setter := .derived, remover := .declared { name := "forgetAge", visibility := .owner } }]
  isInterface := false
  store := .default
  hook := none
  location := none
  source_module_ne := by decide
  preferences_ne := List.cons_ne_nil _ _

theorem generate_wired_ageClass :
    ∃ c, ({ style := .camel } : Generator).generate ageClass = .ok c ∧
      (∃ m, c.method? "getAge" = some m ∧
        m.body = ["return self._store.get_int(\"age\", 0)"]) ∧
      (∃ m, c.method? "setAge" = some m ∧ m.kind = .setter) ∧
      ∃ m, c.method? "forgetAge" = some m ∧ m.visibility = .owner ∧
        m.body = editBody "remove(\"age\")" := by
  have fine : (({ style := .camel } : Generator).generate ageClass).toOption.isSome = true := by
    decide +kernel
  cases made : ({ style := .camel } : Generator).generate ageClass with
  | error failure =>
      rw [made] at fine
      cases fine
  | ok c =>
      obtain ⟨valueType, method, ⟨typed, found⟩, ⟨m, at_name, is_getter⟩, set, removed⟩ :=
        (generate_wired made).1 _ List.mem_cons_self
      obtain rfl := Value.text.inj typed
      have int : StorageTable.standard.resolve? "int" =
          some ⟨"get_int", "put_int", "0"⟩ := by decide +kernel
      obtain rfl := Option.some.inj (int.symm.trans found)
      refine ⟨c, rfl, ⟨m, at_name, is_getter.body.trans (by decide +kernel)⟩, ?_, ?_⟩
      · obtain ⟨name, m, named, at_name, is_setter⟩ := set rfl
        have derived : name = "setAge" := (Option.some.inj named).symm.trans (by decide +kernel)
        exact ⟨m, derived ▸ at_name, is_setter.kind⟩
      · obtain ⟨name, m, named, at_name, is_remover⟩ := removed rfl
        obtain rfl := Option.some.inj named
        exact ⟨m, at_name, is_remover.removes.visibility,
          is_remover.removes.body.trans (by decide +kernel)⟩

end Generator

end Preferences

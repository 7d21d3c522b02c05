import Preferences.Proofs.Generation.Assembly

/-! # What getters, setters and removers do

A getter reads the value that is stored under the key of its preference (`IsGetter`); a setter or a
remover makes one edit, through the editor of the open transaction or one of its own (`editBody`),
and the edit is for that key (`IsSetter`, `IsRemover`).  The methods that are made for a preference
are its getter and, where they are asked for, its setter and its remover, in this order
(`accessors_ok`). -/

namespace Preferences

open Naming (Style)

/-- Whether the method reads or changes a preference. -/
def MethodDef.isAccessor (m : MethodDef) : Bool :=
  match m.kind with
  | .getter | .setter | .remover => true
  | _ => false

/-- The name of a setter or remover: the declared one, or the stem with the suffix of the
preference. -/
def Mutator.methodName? (mutator : Mutator) (style : Style) (stem : String) (p : Preference) :
    Option Value :=
  match mutator.method?, p.name with
  | some known, _ => some known.name
  | none, .text name => some (.text (stem ++ String.ofList (style.methodSuffix name.toList)))
  | none, _ => none

namespace Members

/-- The body of a method that makes one edit. -/
def editBody (operation : String) : List String :=
  ["transaction = self._current_transaction",
    "editor = transaction.editor if transaction is not None else self._store.edit()",
    "editor." ++ operation,
    "if transaction is None:",
    "    editor.apply()"]

structure IsGetter (p : Preference) (valueType : String) (method : StorageMethod)
    (m : MethodDef) : Prop where
  kind : m.kind = .getter
  name : m.name = p.getter.name
  visibility : m.visibility = p.getter.visibility
  overrides : m.overrides = p.getter.overrides
  parameters : m.parameters = []
  returns : m.returns = valueType
  body : m.body = ["return self._store." ++ method.get.plain ++ "(" ++ p.storageKey.literal ++ ", "
    ++ (if p.default = "" then method.default.plain else p.default) ++ ")"]

/-- The method is known as the setter or remover is to be, and makes one edit. -/
structure MakesEdit (style : Style) (p : Preference) (mutator : Mutator) (stem operation : String)
    (m : MethodDef) : Prop where
  name : mutator.methodName? style stem p = some m.name
  visibility : m.visibility = (mutator.method?.map (·.visibility)).getD .everyone
  overrides : m.overrides = (mutator.method?.map (·.overrides)).getD false
  returns : m.returns = "None"
  body : m.body = editBody operation

/-- The method is the setter of a preference: it puts its parameter, which is none of the names that
its body uses. -/
structure IsSetter (style : Style) (p : Preference) (valueType : String) (method : StorageMethod)
    (m : MethodDef) : Prop where
  kind : m.kind = .setter
  puts : ∃ parameter, m.parameters = [⟨parameter, valueType⟩] ∧
    parameter ∉ ["self", "editor", "transaction"] ∧
    MakesEdit style p p.setter "set"
      (method.put.plain ++ "(" ++ p.storageKey.literal ++ ", " ++ parameter ++ ")") m

structure IsRemover (style : Style) (p : Preference) (m : MethodDef) : Prop where
  kind : m.kind = .remover
  parameters : m.parameters = []
  removes : MakesEdit style p p.remover "remove" ("remove(" ++ p.storageKey.literal ++ ")") m

section named
variable {style : Style} {p : Preference} {valueType : String} {method : StorageMethod}
  {m : MethodDef}

theorem IsSetter.methodName? (h : IsSetter style p valueType method m) :
    p.setter.methodName? style "set" p = some m.name := by
  obtain ⟨_, -, -, edit⟩ := h.puts
  exact edit.name

theorem IsRemover.methodName? (h : IsRemover style p m) :
    p.remover.methodName? style "remove" p = some m.name := h.removes.name

end named

def IsGroup (style : Style) (p : Preference) (valueType : String) (method : StorageMethod)
    (group : List MethodDef) : Prop :=
  ∃ getter setters removers, group = getter :: (setters ++ removers) ∧
    IsGetter p valueType method getter ∧
    (if p.setter.isGenerated then ∃ m, setters = [m] ∧ IsSetter style p valueType method m
      else setters = []) ∧
    (if p.remover.isGenerated then ∃ m, removers = [m] ∧ IsRemover style p m else removers = [])

namespace IsGroup

variable {style : Style} {p : Preference} {valueType : String} {method : StorageMethod}
  {group : List MethodDef}

theorem exists_getter (h : IsGroup style p valueType method group) :
    ∃ m ∈ group, IsGetter p valueType method m := by
  obtain ⟨getter, setters, removers, rfl, is_getter, -, -⟩ := h
  exact ⟨getter, List.mem_cons_self, is_getter⟩

theorem exists_setter (h : IsGroup style p valueType method group)
    (asked : p.setter.isGenerated = true) : ∃ m ∈ group, IsSetter style p valueType method m := by
  obtain ⟨getter, setters, removers, rfl, -, set, -⟩ := h
  rw [if_pos asked] at set
  obtain ⟨setter, rfl, is_setter⟩ := set
  exact ⟨setter, by simp, is_setter⟩

theorem exists_remover (h : IsGroup style p valueType method group)
    (asked : p.remover.isGenerated = true) : ∃ m ∈ group, IsRemover style p m := by
  obtain ⟨getter, setters, removers, rfl, -, -, removed⟩ := h
  rw [if_pos asked] at removed
  obtain ⟨remover, rfl, is_remover⟩ := removed
  exact ⟨remover, by simp, is_remover⟩

end IsGroup

/-! ### What is made -/

section made
variable {style : Style} {p : Preference} {valueType : String} {method : StorageMethod}

theorem isGetter_getter (p : Preference) (valueType : String) (method : StorageMethod) :
    IsGetter p valueType method (getter p valueType method) where
  kind := rfl
  name := rfl
  visibility := rfl
  overrides := rfl
  parameters := rfl
  returns := rfl
  body := by
    simp only [getter, defaultExpression, beq_iff_eq]
    rfl

theorem identity_ok {mutator : Mutator} {stem : String} {known : Identity}
    (h : identity style mutator stem p = .ok known) :
    mutator.methodName? style stem p = some known.name ∧
      known.visibility = (mutator.method?.map (·.visibility)).getD .everyone ∧
      known.overrides = (mutator.method?.map (·.overrides)).getD false := by
  unfold identity at h
  unfold Mutator.methodName?
  cases declared : mutator.method? with
  | some m =>
      rw [declared] at h
      obtain rfl := Except.ok.inj h
      exact ⟨rfl, rfl, rfl⟩
  | none =>
      rw [declared] at h
      cases named : p.name with
      | text name =>
          rw [named] at h
          obtain rfl := Except.ok.inj h
          exact ⟨rfl, rfl, rfl⟩
      | _ =>
          rw [named] at h
          cases h

theorem safeName_ne_self (name : List Char) : Style.safeName name ≠ "self".toList := by
  unfold Style.safeName
  split
  · intro same
    have last := congrArg List.getLast? same
    rw [List.getLast?_append, List.getLast?_singleton, Option.some_or] at last
    revert last
    decide
  · next free =>
      rintro rfl
      simp at free

theorem variableOf_ne_self {name : Value} {derived : String}
    (h : style.variableOf name = .ok derived) : derived ≠ "self" := by
  have safe : ∀ chars, String.ofList (Style.safeName chars) ≠ "self" := by
    intro chars same
    exact safeName_ne_self chars (by rw [← same, String.toList_ofList])
  cases name with
  | text name =>
      obtain rfl := Except.ok.inj h
      cases style with
      | snake => exact safe _
      | camel => exact safe _
  | _ => cases h

theorem parameterName_ok {parameter : String} (h : parameterName style p = .ok parameter) :
    parameter ∉ ["self", "editor", "transaction"] := by
  unfold parameterName at h
  cases named : style.variableOf p.name with
  | error misuse =>
      rw [named] at h
      cases h
  | ok name =>
      rw [named] at h
      obtain rfl := Except.ok.inj h
      by_cases editor : name = editorVariable
      · subst editor
        decide
      · by_cases transaction : name = transactionVariable
        · subst transaction
          decide
        · have self := variableOf_ne_self named
          dsimp only
          rw [if_neg (by simp [editor, transaction])]
          simpa using ⟨self, editor, transaction⟩

theorem setter_ok {m : MethodDef} (h : setter style p valueType method = .ok m) :
    IsSetter style p valueType method m := by
  unfold setter at h
  obtain ⟨known, identified, h⟩ := bind_eq_ok_iff.mp h
  obtain ⟨parameter, named, h⟩ := bind_eq_ok_iff.mp h
  obtain ⟨-, -, h⟩ := bind_eq_ok_iff.mp h
  obtain rfl := Except.ok.inj h
  obtain ⟨name, visibility, overrides⟩ := identity_ok identified
  exact ⟨rfl, parameter, rfl, parameterName_ok named, name, visibility, overrides, rfl, rfl⟩

theorem remover_ok {m : MethodDef} (h : remover style p = .ok m) : IsRemover style p m := by
  unfold remover at h
  obtain ⟨known, identified, h⟩ := bind_eq_ok_iff.mp h
  obtain ⟨-, -, h⟩ := bind_eq_ok_iff.mp h
  obtain rfl := Except.ok.inj h
  obtain ⟨name, visibility, overrides⟩ := identity_ok identified
  exact ⟨rfl, rfl, name, visibility, overrides, rfl, rfl⟩

/-- The method that is made if it is asked for. -/
def optional (asked : Bool) (made : Except Misuse MethodDef) : Except Misuse (List MethodDef) :=
  if asked then made.map ([·]) else .ok []

theorem accessors_eq (style : Style) (p : Preference) (valueType : String)
    (method : StorageMethod) : accessors style p valueType method =
      (Value.requireWritable (getterValues p method) >>= fun _ =>
        optional p.setter.isGenerated (setter style p valueType method) >>= fun setters =>
          optional p.remover.isGenerated (remover style p) >>= fun removers =>
            .ok (getter p valueType method :: (setters ++ removers))) := by
  unfold accessors optional
  split_ifs <;> rfl

theorem optional_ok {asked : Bool} {made : Except Misuse MethodDef} {methods : List MethodDef}
    {good : MethodDef → Prop} (ok : ∀ m, made = .ok m → good m)
    (h : optional asked made = .ok methods) :
    if asked then ∃ m, methods = [m] ∧ good m else methods = [] := by
  unfold optional at h
  split_ifs at h ⊢
  · cases made with
    | ok m => exact ⟨m, (Except.ok.inj h).symm, ok m rfl⟩
    | error misuse => cases h
  · exact (Except.ok.inj h).symm

theorem accessors_ok {group : List MethodDef}
    (h : accessors style p valueType method = .ok group) :
    IsGroup style p valueType method group := by
  rw [accessors_eq] at h
  obtain ⟨-, -, h⟩ := bind_eq_ok_iff.mp h
  obtain ⟨setters, set, h⟩ := bind_eq_ok_iff.mp h
  obtain ⟨removers, removed, h⟩ := bind_eq_ok_iff.mp h
  exact ⟨_, setters, removers, (Except.ok.inj h).symm, isGetter_getter p valueType method,
    optional_ok (fun _ => setter_ok) set, optional_ok (fun _ => remover_ok) removed⟩

end made

end Members

end Preferences

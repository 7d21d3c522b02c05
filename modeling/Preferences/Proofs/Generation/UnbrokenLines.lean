import Mathlib.Tactic.MkIffOfInductiveProp
import Preferences.Proofs.Generation.Outcome
import Preferences.Proofs.Source.ClassBlocks
import Preferences.Proofs.Source.HeaderLines
import Preferences.Proofs.Text.Unbroken

/-! # One line for each line

What is written into a line of a generated class has to be without line breaks, or the class has
more physical lines than lines.  Keys and the name of a store stand there as literals, which have
none; types stand there as they were declared, and names of preferences in the style of the
generator.  So if the rest is without line breaks, the methods of a class are exactly if its types
are and, in camel case, the names that others are derived from (`generate_unbroken_iff`). -/

namespace Preferences

open Naming (Style)
open Text (Unbroken lineBreaks physicalLines unbroken_append unbroken_of_all unbroken_literal)

/-! ### What is written into lines -/

/-- No string that is written into the lines of the method has one of the characters. -/
@[mk_iff]
structure MethodDef.IsUnbroken (breaks : List Char) (m : MethodDef) : Prop where
  name : Unbroken breaks m.name.plain
  parameters : ∀ q ∈ m.parameters, Unbroken breaks q.name ∧ Unbroken breaks q.type
  returns : Unbroken breaks m.returns
  docstring : Unbroken breaks m.docstring
  body : ∀ line ∈ m.body, Unbroken breaks line

/-- Nothing that is written around the methods of the class has one of the characters. -/
@[mk_iff]
structure ClassDef.IsUnbroken (breaks : List Char) (c : ClassDef) : Prop where
  name : Unbroken breaks c.name.plain
  bases : ∀ base ∈ c.bases, Unbroken breaks base.name
  docstring : Unbroken breaks c.docstring
  fields : ∀ f ∈ c.fields, Unbroken breaks f.name ∧ Unbroken breaks f.type ∧
    ∀ value ∈ f.initializer, Unbroken breaks value

structure StorageMethod.IsUnbroken (breaks : List Char) (method : StorageMethod) : Prop where
  get : Unbroken breaks method.get.plain
  put : Unbroken breaks method.put.plain
  default : Unbroken breaks method.default.plain

namespace Preference

/-- The names of declared methods and the default are without the characters. -/
structure IsUnbroken (breaks : List Char) (p : Preference) : Prop where
  declared : ∀ m ∈ p.declaredMethods, Unbroken breaks m.name.plain
  default : Unbroken breaks p.default

/-- A name is derived from that of the preference: the one of a parameter, or that of a remover. -/
def DerivesName (p : Preference) : Prop :=
  p.setter.isGenerated = true ∨ p.remover.isGenerated = true ∧ p.remover.method? = none

end Preference

/-- The names of the class, of its source and of declared methods, and the defaults are without the
characters. -/
structure Declaration.IsUnbroken (breaks : List Char) (d : Declaration) : Prop where
  name : Unbroken breaks d.name.plain
  source : Unbroken breaks d.source.module ∧ Unbroken breaks d.source.name
  preferences : ∀ p ∈ d.preferences, p.IsUnbroken breaks
  hook : ∀ hook, d.hook = some hook → Unbroken breaks hook.method.plain

namespace Text

theorem physicalLines_of_unbroken {s : List Char} (noFeed : '\n' ∉ s) (noReturn : '\r' ∉ s) :
    physicalLines s = [s] := by
  induction s with
  | nil => rfl
  | cons c s ih =>
      obtain ⟨feed, noFeed⟩ := List.ne_and_not_mem_of_not_mem_cons noFeed
      obtain ⟨ret, noReturn⟩ := List.ne_and_not_mem_of_not_mem_cons noReturn
      rw [physicalLines_other (not_or.mpr ⟨feed.symm, ret.symm⟩), ih noFeed noReturn]
      rfl

theorem physicalLines_intercalate {lines : List String} (some : lines ≠ [])
    (unbroken : ∀ line ∈ lines, '\n' ∉ line.toList ∧ '\r' ∉ line.toList) :
    physicalLines ("\n".intercalate lines).toList = lines.map String.toList := by
  induction lines with
  | nil => exact absurd rfl some
  | cons line rest ih =>
      obtain ⟨⟨noFeed, noReturn⟩, later⟩ := List.forall_mem_cons.mp unbroken
      cases rest with
      | nil =>
          show physicalLines line.toList = _
          rw [physicalLines_of_unbroken noFeed noReturn]
          rfl
      | cons next rest =>
          have joined : ("\n".intercalate (line :: next :: rest)).toList =
              line.toList ++ '\n' :: ("\n".intercalate (next :: rest)).toList := by
            rw [String.intercalate_cons_cons, String.toList_append, String.toList_append,
              List.append_assoc]
            rfl
          rw [joined, physicalLines_append, endedLines_of_unbroken noFeed noReturn,
            ih (List.cons_ne_nil _ _) later]
          rfl

end Text

section lines
variable {breaks : List Char} (within : breaks ⊆ lineBreaks)

include within

/-! ### Lines -/

theorem unbroken_indentLine {line : String} (h : Unbroken breaks line) :
    Unbroken breaks (indentLine line) := by
  unfold indentLine
  split_ifs
  · exact Text.unbroken_empty
  · exact unbroken_append.mpr ⟨unbroken_of_all within rfl, h⟩

theorem unbroken_docLine {docstring : String} (h : Unbroken breaks docstring) :
    Unbroken breaks (docLine docstring) :=
  unbroken_append.mpr ⟨unbroken_append.mpr ⟨unbroken_of_all within rfl, h⟩,
    unbroken_of_all within rfl⟩

theorem FieldDef.unbroken_line {f : FieldDef} (name : Unbroken breaks f.name)
    (type : Unbroken breaks f.type) (value : ∀ value ∈ f.initializer, Unbroken breaks value) :
    Unbroken breaks f.line := by
  have typed : Unbroken breaks (if f.isStatic then "ClassVar[" ++ f.type ++ "]" else f.type) := by
    split_ifs
    · simp (disch := decide) [unbroken_of_all within, type]
    · exact type
  have begun : Unbroken breaks ((f.initializer.map (" = " ++ ·)).getD "") := by
    cases given : f.initializer with
    | none => exact Text.unbroken_empty
    | some v => exact unbroken_append.mpr ⟨unbroken_of_all within rfl, value v given⟩
  unfold FieldDef.line
  simp (disch := decide) [unbroken_of_all within, name, typed, begun]

theorem MethodDef.IsUnbroken.lines {m : MethodDef} (h : m.IsUnbroken breaks) :
    ∀ line ∈ m.lines, Unbroken breaks line := by
  have head : Unbroken breaks ("def " ++ m.name.plain ++ "(" ++ ", ".intercalate
      ((if m.isStatic then [] else ["self"]) ++ m.parameters.map fun p => p.name ++ ": " ++ p.type)
      ++ ") -> " ++ m.returns ++ ":") := by
    have parameters : Unbroken breaks (", ".intercalate ((if m.isStatic then [] else ["self"]) ++
        m.parameters.map fun p => p.name ++ ": " ++ p.type)) := by
      refine Text.unbroken_intercalate (unbroken_of_all within rfl) fun part member => ?_
      rcases List.mem_append.mp member with self | given
      · split_ifs at self
        · cases self
        · rw [List.mem_singleton.mp self]
          exact unbroken_of_all within rfl
      · obtain ⟨q, known, rfl⟩ := List.mem_map.mp given
        obtain ⟨name, type⟩ := h.parameters q known
        simp (disch := decide) [unbroken_of_all within, name, type]
    simp (disch := decide) [unbroken_of_all within, h.name, h.returns, parameters]
  intro line member
  unfold MethodDef.lines at member
  simp only [List.mem_append, List.mem_singleton] at member
  rcases member with ((static | rfl) | documented) | body
  · split_ifs at static
    · rw [List.mem_singleton.mp static]
      exact unbroken_of_all within rfl
    · cases static
  · exact head
  · split_ifs at documented
    · cases documented
    · rw [List.mem_singleton.mp documented]
      exact unbroken_append.mpr ⟨unbroken_of_all within rfl, unbroken_docLine within h.docstring⟩
  · obtain ⟨inner, member, rfl⟩ := List.mem_map.mp body
    refine unbroken_append.mpr ⟨unbroken_of_all within rfl, ?_⟩
    split_ifs at member
    · rw [List.mem_singleton.mp member]
      exact unbroken_of_all within rfl
    · exact h.body inner member

theorem ClassDef.IsUnbroken.headLine {c : ClassDef} (h : c.IsUnbroken breaks) :
    Unbroken breaks c.headLine := by
  have bases : Unbroken breaks (", ".intercalate (c.bases.map (·.name))) := by
    refine Text.unbroken_intercalate (unbroken_of_all within rfl) fun part member => ?_
    obtain ⟨base, known, rfl⟩ := List.mem_map.mp member
    exact h.bases base known
  unfold ClassDef.headLine
  simp only [unbroken_append]
  refine ⟨⟨⟨unbroken_of_all within rfl, h.name⟩, ?_⟩, unbroken_of_all within rfl⟩
  split_ifs
  · exact Text.unbroken_empty
  · simp (disch := decide) [unbroken_of_all within, bases]

theorem ClassDef.lines_unbroken (c : ClassDef)
    (around : ∀ d : ClassDef, d.Within c → d.IsUnbroken breaks)
    (methods : ∀ d : ClassDef, d.Within c → ∀ m ∈ d.methods, m.IsUnbroken breaks) :
    ∀ line ∈ c.lines, Unbroken breaks line := by
  induction c using ClassDef.nesting_induction with
  | step c nested =>
      have own := around c (.self c)
      rw [c.lines_eq]
      refine List.forall_mem_cons.mpr ⟨own.headLine within, fun line member => ?_⟩
      rcases mem_intercalate member with rfl | ⟨block, among, member⟩
      · exact Text.unbroken_empty
      obtain ⟨part, there, rfl⟩ := List.mem_map.mp among
      obtain ⟨inner, written, rfl⟩ := List.mem_map.mp member
      refine unbroken_indentLine within ?_
      rcases ClassDef.mem_members there with
        rfl | rfl | ⟨rfl, -⟩ | ⟨m, known, rfl⟩ | ⟨d, known, rfl⟩
      · rw [List.mem_singleton.mp written]
        exact unbroken_of_all within rfl
      · rw [List.mem_singleton.mp written]
        exact unbroken_docLine within own.docstring
      · obtain ⟨f, known, rfl⟩ := List.mem_map.mp written
        obtain ⟨name, type, value⟩ := own.fields f known
        exact f.unbroken_line within name type value
      · exact (methods c (.self c) m known).lines within inner written
      · exact nested d known (fun e inside => around e (inside.nested known))
          (fun e inside => methods e (inside.nested known)) inner written

/-! ### Accessors -/

section accessors
variable {style : Style} {p : Preference} {valueType : String} {method : StorageMethod}
  {m : MethodDef} (given : p.IsUnbroken breaks) (stored : method.IsUnbroken breaks)

/-- A name is unbroken if it was declared, and else exactly if the derived name is. -/
theorem Members.unbroken_identity_iff {mutator : Mutator} {stem : String} {known : Members.Identity}
    (known_stem : Unbroken breaks stem)
    (declared : ∀ m, mutator.method? = some m → Unbroken breaks m.name.plain)
    (made : Members.identity style mutator stem p = .ok known) :
    Unbroken breaks known.name.plain ↔
      (mutator.method? = none → style = .camel → Unbroken breaks p.name.plain) := by
  unfold Members.identity at made
  cases found : mutator.method? with
  | some m =>
      rw [found] at made
      obtain rfl := Except.ok.inj made
      exact iff_of_true (declared m found) nofun
  | none =>
      rw [found] at made
      cases named : p.name with
      | text name =>
          rw [named] at made
          obtain rfl := Except.ok.inj made
          show Unbroken breaks (stem ++ String.ofList (style.methodSuffix name.toList)) ↔ _
          rw [unbroken_append, Text.unbroken_ofList, Style.unbroken_methodSuffix_iff within,
            and_iff_right known_stem]
          exact ⟨fun unbroken _ => unbroken, fun unbroken => unbroken rfl⟩
      | _ =>
          rw [named] at made
          cases made

theorem Members.unbroken_parameterName_iff {parameter : String}
    (made : Members.parameterName style p = .ok parameter) :
    Unbroken breaks parameter ↔ (style = .camel → Unbroken breaks p.name.plain) := by
  unfold Members.parameterName at made
  cases named : p.name with
  | text name =>
      rw [named] at made
      obtain rfl := Except.ok.inj made
      have plain : Unbroken breaks (String.ofList (style.variableName name.toList)) ↔
          (style = .camel → Unbroken breaks name) := by
        rw [Text.unbroken_ofList, Style.unbroken_variableName_iff within]
        rfl
      dsimp only
      split_ifs
      · rw [unbroken_append, plain]
        exact and_iff_left (unbroken_of_all within rfl)
      · exact plain
  | _ =>
      rw [named] at made
      cases made

theorem Members.unbroken_editLines_iff {operation : String} :
    (∀ line ∈ Members.editLines operation, Unbroken breaks line) ↔ Unbroken breaks operation := by
  unfold Members.editLines
  simp (disch := decide) [unbroken_of_all within]

theorem unbroken_literal_of_isText {v : Value} (text : v.isText = true) :
    Unbroken breaks v.literal := by
  cases v with
  | text t => exact unbroken_literal within t
  | _ => cases text

include given stored

theorem Members.getter_unbroken_iff (key : p.storageKey.isText = true) :
    (Members.getter p valueType method).IsUnbroken breaks ↔ Unbroken breaks valueType := by
  refine ⟨fun h => h.returns, fun unbroken => ⟨?_, nofun, unbroken, Text.unbroken_empty, ?_⟩⟩
  · exact given.declared p.getter List.mem_cons_self
  · have default : Unbroken breaks (Members.defaultExpression p method) := by
      unfold Members.defaultExpression
      split_ifs
      · exact stored.default
      · exact given.default
    refine List.forall_mem_singleton.mpr ?_
    simp (disch := decide) [unbroken_of_all within, unbroken_literal_of_isText within key,
      stored.get, default]

/-- In a setter it is its type and, in camel case, its parameter. -/
theorem Members.setter_unbroken_iff (key : p.storageKey.isText = true)
    (made : Members.setter style p valueType method = .ok m) : m.IsUnbroken breaks ↔
      Unbroken breaks valueType ∧ (style = .camel → Unbroken breaks p.name.plain) := by
  unfold Members.setter at made
  obtain ⟨known, identified, made⟩ := bind_eq_ok_iff.mp made
  obtain ⟨parameter, named, made⟩ := bind_eq_ok_iff.mp made
  obtain ⟨-, -, made⟩ := bind_eq_ok_iff.mp made
  obtain rfl := Except.ok.inj made
  have name := Members.unbroken_identity_iff within (unbroken_of_all within rfl)
    (fun m declared => given.declared m (by simp [Preference.declaredMethods, declared])) identified
  have parameter_iff := Members.unbroken_parameterName_iff within named
  constructor
  · intro h
    obtain ⟨unbroken, type⟩ := h.parameters _ List.mem_cons_self
    exact ⟨type, parameter_iff.mp unbroken⟩
  · rintro ⟨type, derived⟩
    have unbroken := parameter_iff.mpr derived
    have none : Unbroken breaks "None" := unbroken_of_all within rfl
    refine ⟨name.mpr fun _ => derived, List.forall_mem_singleton.mpr ⟨unbroken, type⟩, none,
      Text.unbroken_empty, ?_⟩
    refine (Members.unbroken_editLines_iff within).mpr ?_
    simp (disch := decide) [unbroken_of_all within, unbroken_literal_of_isText within key,
      stored.put, unbroken]

omit stored in
/-- In a remover it is, in camel case, its own name unless that was declared. -/
theorem Members.remover_unbroken_iff (key : p.storageKey.isText = true)
    (made : Members.remover style p = .ok m) : m.IsUnbroken breaks ↔
      (p.remover.method? = none → style = .camel → Unbroken breaks p.name.plain) := by
  unfold Members.remover at made
  obtain ⟨known, identified, made⟩ := bind_eq_ok_iff.mp made
  obtain ⟨-, -, made⟩ := bind_eq_ok_iff.mp made
  obtain rfl := Except.ok.inj made
  have name := Members.unbroken_identity_iff within (unbroken_of_all within rfl)
    (fun m declared => given.declared m (by simp [Preference.declaredMethods, declared])) identified
  have none : Unbroken breaks "None" := unbroken_of_all within rfl
  refine ⟨fun h => name.mp h.name, fun derived => ⟨name.mpr derived, List.forall_mem_nil _, none,
    Text.unbroken_empty, ?_⟩⟩
  refine (Members.unbroken_editLines_iff within).mpr ?_
  simp (disch := decide) [unbroken_of_all within, unbroken_literal_of_isText within key]

/-- In the accessors of a preference it is its type and, in camel case, its name where another one
is derived from it. -/
theorem Members.accessors_unbroken_iff {group : List MethodDef}
    (key : p.storageKey.isText = true)
    (made : Members.accessors style p valueType method = .ok group) :
    (∀ m ∈ group, m.IsUnbroken breaks) ↔ Unbroken breaks valueType ∧
      (p.DerivesName → style = .camel → Unbroken breaks p.name.plain) := by
  rw [Members.accessors_eq] at made
  obtain ⟨-, -, made⟩ := bind_eq_ok_iff.mp made
  obtain ⟨setters, set, made⟩ := bind_eq_ok_iff.mp made
  obtain ⟨removers, removed, made⟩ := bind_eq_ok_iff.mp made
  obtain rfl := Except.ok.inj made
  have set_iff : (∀ m ∈ setters, m.IsUnbroken breaks) ↔ (p.setter.isGenerated = true →
      Unbroken breaks valueType ∧ (style = .camel → Unbroken breaks p.name.plain)) := by
    have set := Members.optional_ok (fun m made => made) set
    split_ifs at set with asked
    · obtain ⟨setter, rfl, own⟩ := set
      rw [List.forall_mem_singleton, Members.setter_unbroken_iff within given stored key own]
      exact ⟨fun h _ => h, fun h => h asked⟩
    · rw [set]
      exact iff_of_true nofun fun h => absurd h asked
  have removed_iff : (∀ m ∈ removers, m.IsUnbroken breaks) ↔ (p.remover.isGenerated = true →
      p.remover.method? = none → style = .camel → Unbroken breaks p.name.plain) := by
    have removed := Members.optional_ok (fun m made => made) removed
    split_ifs at removed with asked
    · obtain ⟨remover, rfl, own⟩ := removed
      rw [List.forall_mem_singleton, Members.remover_unbroken_iff within given key own]
      exact ⟨fun h _ => h, fun h => h asked⟩
    · rw [removed]
      exact iff_of_true nofun fun h => absurd h asked
  rw [List.forall_mem_cons, List.forall_mem_append, set_iff, removed_iff,
    Members.getter_unbroken_iff within given stored key]
  unfold Preference.DerivesName
  constructor
  · rintro ⟨type, set, removed⟩
    exact ⟨type, fun derives => derives.elim (fun asked => (set asked).2)
      fun derived => removed derived.1 derived.2⟩
  · rintro ⟨type, derived⟩
    exact ⟨type, fun asked => ⟨type, derived (Or.inl asked)⟩,
      fun asked own => derived (Or.inr ⟨asked, own⟩)⟩

end accessors

/-! ### Classes -/

section classes
variable {g : Generator} {d : Declaration} {c : ClassDef}

omit within in
/-- A class in a generated class is that class or the one of its transactions. -/
theorem Generator.within_assemble {methods : List MethodDef}
    (h : c.Within (g.assemble d methods)) :
    c = g.assemble d methods ∨ c = Members.transaction d.name.plain := by
  cases h with
  | self => exact Or.inl rfl
  | nested inside there =>
      obtain rfl := List.mem_singleton.mp there
      cases inside with
      | self => exact Or.inr rfl
      | nested _ none => cases none

variable {owner : String}

theorem Members.getInstance_unbroken (named : Unbroken breaks owner) :
    (Members.getInstance owner).IsUnbroken breaks := by
  simp (disch := decide) [MethodDef.isUnbroken_iff, Members.getInstance,
    unbroken_of_all within, named]

theorem Members.clear_unbroken : Members.clear.IsUnbroken breaks := by
  simp (disch := decide) [MethodDef.isUnbroken_iff, Members.clear, unbroken_of_all within]

theorem Members.beginTransaction_unbroken (named : Unbroken breaks owner) :
    (Members.beginTransaction owner).IsUnbroken breaks := by
  simp (disch := decide) [MethodDef.isUnbroken_iff, Members.beginTransaction,
    Members.transactionType, unbroken_of_all within, named]

theorem Members.transaction_unbroken (named : Unbroken breaks owner) :
    (Members.transaction owner).IsUnbroken breaks ∧
      ∀ m ∈ (Members.transaction owner).methods, m.IsUnbroken breaks := by
  constructor
  · simp (disch := decide) [ClassDef.isUnbroken_iff, ClassDef.bases, Members.transaction,
      unbroken_of_all within, named]
  · simp (disch := decide) [MethodDef.isUnbroken_iff, Members.transaction,
      Members.transactionConstructor, Members.commit, Members.rollback, Members.enter,
      Members.leave, Members.releaseLines, Members.transactionType, unbroken_of_all within, named]

theorem Members.storeExpression_unbroken (typed : d.IsTyped) :
    Unbroken breaks (Members.storeExpression d.store) := by
  unfold Members.storeExpression
  cases chosen : d.store with
  | default => exact unbroken_of_all within rfl
  | named name truthy =>
      have text : name.isText = true := by
        have known := typed.store
        rw [chosen] at known
        refine known.resolve_left ?_
        rintro rfl
        cases truthy
      simp (disch := decide) [unbroken_of_all within, unbroken_literal_of_isText within text]

theorem Members.hookLines_unbroken (given : d.IsUnbroken breaks) :
    ∀ line ∈ Members.hookLines d.hook, Unbroken breaks line := by
  cases called : d.hook with
  | none => nofun
  | some hook =>
      have argument : Unbroken breaks
          (if hook.takesContext then Members.contextVariable else "") := by
        split_ifs <;> exact unbroken_of_all within rfl
      simp (disch := decide) [Members.hookLines, unbroken_of_all within,
        given.hook hook called, argument]

theorem Members.constructor_unbroken (typed : d.IsTyped) (given : d.IsUnbroken breaks) :
    (Members.constructor d).IsUnbroken breaks := by
  have message : Unbroken breaks (Value.literal "Context must not be None") :=
    unbroken_literal within _
  have hook := Members.hookLines_unbroken within given
  unfold Members.constructor
  generalize Value.literal "Context must not be None" = text at message
  simp (disch := decide) [MethodDef.isUnbroken_iff, unbroken_of_all within, message,
    Members.storeExpression_unbroken within typed]
  exact hook

theorem Generator.assemble_unbroken (given : d.IsUnbroken breaks) (methods : List MethodDef) :
    (g.assemble d methods).IsUnbroken breaks where
  name := given.name
  bases := by
    intro base member
    have own : base = d.source := by
      unfold ClassDef.bases Generator.assemble at member
      cases interface : d.isInterface <;> simpa [interface] using member
    rw [own]
    exact given.source.2
  docstring := by
    unfold Generator.assemble TypeRef.text
    simp (disch := decide) [unbroken_of_all within, given.source.1, given.source.2]
  fields := by
    show ∀ f ∈ Members.classFields _, _
    unfold Members.classFields
    simp (disch := decide) [unbroken_of_all within, given.name]

/-- The groups of methods are unbroken exactly if the types of their preferences are and, in camel
case, the names that others are derived from. -/
theorem Generator.groups_unbroken_iff {preferences : List Preference} {resolved : List Resolved}
    {groups : List (List MethodDef)} (stored : ∀ entry ∈ g.table.entries, entry.2.IsUnbroken breaks)
    (typed : ∀ p ∈ preferences, p.IsTyped) (given : ∀ p ∈ preferences, p.IsUnbroken breaks)
    (each : List.Forall₂ (fun p r => g.resolve d p = .ok r) preferences resolved)
    (made : List.Forall₂ (fun r group =>
      Members.accessors g.style r.preference r.valueType r.method = .ok group) resolved groups) :
    (∀ m ∈ groups.flatten, m.IsUnbroken breaks) ↔ ∀ p ∈ preferences,
      Unbroken breaks p.valueType.plain ∧
        (p.DerivesName → g.style = .camel → Unbroken breaks p.name.plain) := by
  induction each generalizing groups with
  | nil =>
      obtain rfl := List.forall₂_nil_left_iff.mp made
      simp
  | @cons p r _ _ resolves _ ih =>
      obtain ⟨group, rest, first, later, rfl⟩ := List.forall₂_cons_left_iff.mp made
      obtain ⟨rfl, text, found⟩ := Generator.resolve_ok resolves
      obtain ⟨typed_first, typed_rest⟩ := List.forall_mem_cons.mp typed
      obtain ⟨given_first, given_rest⟩ := List.forall_mem_cons.mp given
      obtain ⟨before, after, entries, -⟩ := List.lookup_eq_some_iff.mp found
      have known : r.method.IsUnbroken breaks :=
        stored (normalizeType r.valueType, r.method) (by simp [entries])
      rw [List.flatten_cons, List.forall_mem_append, List.forall_mem_cons,
        ih typed_rest given_rest later,
        Members.accessors_unbroken_iff within given_first known typed_first.isText_storageKey first,
        text]
      rfl

theorem Generator.methods_unbroken_iff (typed : d.IsTyped) (given : d.IsUnbroken breaks)
    (stored : ∀ entry ∈ g.table.entries, entry.2.IsUnbroken breaks) {methods : List MethodDef}
    (made : g.methods d = .ok methods) :
    (∀ m ∈ methods, m.IsUnbroken breaks) ↔ ∀ p ∈ d.preferences,
      Unbroken breaks p.valueType.plain ∧
        (p.DerivesName → g.style = .camel → Unbroken breaks p.name.plain) := by
  obtain ⟨resolved, groups, each, grouped, rfl⟩ := Generator.methods_ok made
  rw [← Generator.groups_unbroken_iff within stored typed.preferences given.preferences each
    grouped]
  have first := Members.getInstance_unbroken within given.name
  have last : ∀ m ∈ [Members.constructor d, Members.clear,
      Members.beginTransaction d.name.plain], m.IsUnbroken breaks :=
    List.forall_mem_cons.mpr ⟨Members.constructor_unbroken within typed given,
      List.forall_mem_cons.mpr ⟨Members.clear_unbroken within,
        List.forall_mem_singleton.mpr (Members.beginTransaction_unbroken within given.name)⟩⟩
  constructor
  · intro all m member
    exact all m (List.mem_append_left _ (List.mem_cons_of_mem _ member))
  · intro all
    exact List.forall_mem_append.mpr ⟨List.forall_mem_cons.mpr ⟨first, all⟩, last⟩

/-- **Lines are one line each, exactly if types and names are.**  Where everything else is without
line breaks, the methods of a generated class, and of the class of transactions in it, are without
them exactly if all types of preferences are and, in camel case, all names that another name is
derived from.  In that case no line of the class has any, and so the class has as many physical
lines as it has lines. -/
theorem Generator.generate_unbroken_iff (feed : '\n' ∈ breaks) (ret : '\r' ∈ breaks)
    (typed : d.IsTyped) (given : d.IsUnbroken breaks)
    (stored : ∀ entry ∈ g.table.entries, entry.2.IsUnbroken breaks) (made : g.generate d = .ok c) :
    ((∀ inner : ClassDef, inner.Within c → ∀ m ∈ inner.methods, m.IsUnbroken breaks) ↔
      ∀ p ∈ d.preferences, Unbroken breaks p.valueType.plain ∧
        (p.DerivesName → g.style = .camel → Unbroken breaks p.name.plain)) ∧
    ((∀ inner : ClassDef, inner.Within c → ∀ m ∈ inner.methods, m.IsUnbroken breaks) →
      (∀ line ∈ c.lines, Unbroken breaks line) ∧
        physicalLines ("\n".intercalate c.lines).toList = c.lines.map String.toList) := by
  obtain ⟨methods, gathered, -, rfl⟩ := Generator.generate_ok made
  obtain ⟨transaction, committing⟩ := Members.transaction_unbroken within given.name
  constructor
  · rw [← Generator.methods_unbroken_iff within typed given stored gathered]
    constructor
    · exact fun all => all _ (.self _)
    · intro all inner inside
      rcases Generator.within_assemble inside with rfl | rfl
      · exact all
      · exact committing
  · intro all
    have lines := ClassDef.lines_unbroken within (g.assemble d methods) (fun inner inside => by
      rcases Generator.within_assemble inside with rfl | rfl
      · exact Generator.assemble_unbroken within given methods
      · exact transaction) all
    refine ⟨lines, Text.physicalLines_intercalate ?_ fun line member => ?_⟩
    · rw [ClassDef.lines_eq]
      exact List.cons_ne_nil _ _
    · exact ⟨fun here => lines line member _ here feed, fun here => lines line member _ here ret⟩

end classes

end lines

/-! ### A class with a line break in a type -/

theorem readingTwo_isUnbroken {first second : String × String} (line : Int)
    (first_name : Unbroken lineBreaks first.1) (second_name : Unbroken lineBreaks second.1) :
    (Generator.readingTwo first second line).IsUnbroken lineBreaks where
  name := by
    show Unbroken lineBreaks "SettingsImpl"
    decide
  source := by
    show Unbroken lineBreaks "modes" ∧ Unbroken lineBreaks "Settings"
    decide
  preferences := by
    have each : ∀ entry : String × String, Unbroken lineBreaks entry.1 →
        ({ name := entry.1, valueType := entry.2, getter := { name := entry.1 } } :
          Preference).IsUnbroken lineBreaks := fun entry name =>
      ⟨List.forall_mem_singleton.mpr name, Text.unbroken_empty⟩
    simp [Generator.readingTwo, each, first_name, second_name]
  hook := nofun

theorem standard_isUnbroken : ∀ entry ∈ StorageTable.standard.entries,
    entry.2.IsUnbroken lineBreaks := by
  have texts : ∀ entry ∈ StorageTable.standard.entries,
      Unbroken lineBreaks entry.2.get.plain ∧ Unbroken lineBreaks entry.2.put.plain ∧
        Unbroken lineBreaks entry.2.default.plain := by
    decide +kernel
  exact fun entry member =>
    ⟨(texts entry member).1, (texts entry member).2.1, (texts entry member).2.2⟩

theorem Generator.generate_unbroken_iff_readingTwo : ∃ c,
    ({} : Generator).generate (readingTwo ("age", "int") ("names", "set[ str ]") 1) = .ok c ∧
      physicalLines ("\n".intercalate c.lines).toList = c.lines.map String.toList := by
  obtain ⟨c, made⟩ : ∃ c, ({} : Generator).generate
      (readingTwo ("age", "int") ("names", "set[ str ]") 1) = .ok c :=
    exists_ok_of_isSome (by decide +kernel)
  have exact_condition := generate_unbroken_iff (fun _ member => member) (by decide) (by decide)
    (readingTwo_isTyped _ _ _) (readingTwo_isUnbroken 1 (by decide) (by decide))
    standard_isUnbroken made
  refine ⟨c, made, (exact_condition.2 (exact_condition.1.mpr fun p member => ⟨?_, nofun⟩)).2⟩
  revert p
  decide +kernel

/-- A type that is known but for a line break takes the line break into the class. -/
theorem Generator.type_breaks_line :
    (readingTwo ("age", "int\n") ("flag", "bool") 1).IsTyped ∧
      (readingTwo ("age", "int\n") ("flag", "bool") 1).IsUnbroken lineBreaks ∧
      ∃ c, ({} : Generator).generate (readingTwo ("age", "int\n") ("flag", "bool") 1) = .ok c ∧
        ∃ m ∈ c.methods, m.returns = "int\n" ∧ ¬m.IsUnbroken lineBreaks := by
  refine ⟨readingTwo_isTyped _ _ _, readingTwo_isUnbroken 1 (by decide) (by decide), ?_⟩
  obtain ⟨c, made⟩ : ∃ c, ({} : Generator).generate
      (readingTwo ("age", "int\n") ("flag", "bool") 1) = .ok c :=
    exists_ok_of_isSome (by decide +kernel)
  have seen : (({} : Generator).generate (readingTwo ("age", "int\n") ("flag", "bool") 1)
      ).toOption.any (·.methods.any (·.returns == "int\n")) = true := by decide +kernel
  rw [made] at seen
  obtain ⟨m, member, returns⟩ := List.any_eq_true.mp seen
  have returns := beq_iff_eq.mp returns
  refine ⟨c, made, m, member, returns, fun unbroken => ?_⟩
  have held := unbroken.returns
  rw [returns] at held
  exact absurd held (by decide)

end Preferences

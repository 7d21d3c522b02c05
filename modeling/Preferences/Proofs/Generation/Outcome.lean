import Preferences.Proofs.Generation.Repetitions
import Preferences.Proofs.Members.Usable

/-! # What becomes of a declaration

Generation ends in one of four ways.  The first preference whose type no store holds rejects the
declaration (`Generator.Unsupported`); otherwise the first method that repeats a name does
(`Generator.Repeats`); otherwise the class is made, with these names (`Generator.Accepts`).  What
remains are declarations with values that cannot be used where they stand (`generate_outcome`).  If
all entries have the kinds that they are meant to have, the first three cases are the only ones. -/

namespace Preferences

def Declaration.methodNames (style : Naming.Style) (d : Declaration) : List Value :=
  .text "get_instance" :: d.preferences.flatMap (Preference.accessorNames style) ++
    [.text "__init__", .text "clear", .text "begin_transaction"]

/-- The entries have the kinds that they are meant to have. -/
structure Declaration.IsTyped (d : Declaration) : Prop where
  name : d.name.isText = true
  preferences : ∀ p ∈ d.preferences, p.IsTyped
  store : d.store.name = .null ∨ d.store.name.isText = true
  hook : ∀ hook, d.hook = some hook → hook.method.isText = true

namespace Generator

open Members

variable {g : Generator} {d : Declaration} {p : Preference} {r : Rejection}

/-- Some store holds values of the type of the preference. -/
def Resolves (g : Generator) (p : Preference) : Prop :=
  ∃ valueType method, g.Stores p valueType method

/-- Everything that is written into the class can be written. -/
structure CanWrite (g : Generator) (d : Declaration) : Prop where
  name : d.name.isWritable = true
  store : d.store.name.isWritable = true
  hook : ∀ hook, d.hook = some hook → hook.method.isWritable = true
  accessors : ∀ p ∈ d.preferences, ∀ valueType method, g.Stores p valueType method →
    (p.writtenValues method).all Value.isWritable = true

/-- The values of the declaration can be used where they stand: all names can be derived, and
everything that is written into the class can be written. -/
structure Usable (g : Generator) (d : Declaration) : Prop where
  writable : g.CanWrite d
  named : ∀ p ∈ d.preferences, p.IsNamed

/-- The rejection is for the first preference whose type no store holds, at the location of the
preference or else of the class. -/
def Unsupported (g : Generator) (d : Declaration) (r : Rejection) : Prop :=
  ∃ before p after valueType, d.preferences = before ++ p :: after ∧
    (∀ earlier ∈ before, g.Resolves earlier) ∧
    p.valueType = .text valueType ∧ g.table.resolve? valueType = none ∧
    r = ⟨.unsupportedType valueType d.name, p.location <|> d.location⟩

/-- The rejection is for the first method that repeats a name, at the location of the class, where
all types are known. -/
def Repeats (g : Generator) (d : Declaration) (r : Rejection) : Prop :=
  (∀ p ∈ d.preferences, g.Resolves p) ∧ g.Usable d ∧
    ∃ name, RepeatsFirst (d.methodNames g.style) name ∧
      r = ⟨.repeatedMethod d.name name, d.location⟩

/-- Nothing stands in the way of the class. -/
structure Accepts (g : Generator) (d : Declaration) : Prop where
  resolves : ∀ p ∈ d.preferences, g.Resolves p
  usable : g.Usable d
  distinct : Distinct (d.methodNames g.style)

/-! ### Types -/

theorem resolve_of_stores {valueType : String} {method : StorageMethod}
    (h : g.Stores p valueType method) : g.resolve d p = .ok ⟨p, valueType, method⟩ := by
  unfold resolve
  rw [h.typed]
  simp only [h.found]

theorem resolve_isOk_iff : (∃ resolved, g.resolve d p = .ok resolved) ↔ g.Resolves p := by
  constructor
  · rintro ⟨resolved, done⟩
    obtain ⟨rfl, typed, found⟩ := resolve_ok done
    exact ⟨_, _, typed, found⟩
  · rintro ⟨valueType, method, stores⟩
    exact ⟨_, resolve_of_stores stores⟩

theorem resolve_of_unknown {valueType : String} (typed : p.valueType = .text valueType)
    (unknown : g.table.resolve? valueType = none) : g.resolve d p =
      .error (.ofRejection ⟨.unsupportedType valueType d.name, p.location <|> d.location⟩) := by
  unfold resolve
  rw [typed]
  simp only [unknown]

theorem resolve_of_not_isText (h : ¬p.valueType.isText = true) :
    g.resolve d p = .error (.misused .notTypeExpression) := by
  unfold resolve
  split
  · next text => exact absurd (by rw [text]; rfl) h
  · rfl

theorem not_resolves_of_unknown {valueType : String} (typed : p.valueType = .text valueType)
    (unknown : g.table.resolve? valueType = none) : ¬g.Resolves p := by
  rintro ⟨_, _, typed', found⟩
  obtain rfl := Value.text.inj (typed.symm.trans typed')
  rw [unknown] at found
  cases found

/-- The type of a preference is known, or it is a text that no store holds, or it is no text. -/
theorem resolves_or (g : Generator) (p : Preference) : g.Resolves p ∨
    (∃ valueType, p.valueType = .text valueType ∧ g.table.resolve? valueType = none) ∨
    ¬p.valueType.isText = true := by
  cases typed : p.valueType with
  | text valueType =>
      cases found : g.table.resolve? valueType with
      | none => exact Or.inr (Or.inl ⟨valueType, rfl, found⟩)
      | some method => exact Or.inl ⟨valueType, method, typed, found⟩
  | _ => exact Or.inr (Or.inr (by simp [Value.isText]))

/-- Where not all types are known, one is the first that is not. -/
theorem exists_first_unresolved (h : ¬∀ p ∈ d.preferences, g.Resolves p) :
    ∃ before p after, d.preferences = before ++ p :: after ∧
      (∀ earlier ∈ before, g.Resolves earlier) ∧ ¬g.Resolves p := by
  cases walked : d.preferences.mapM (g.resolve d) with
  | ok resolved =>
      exact absurd (fun p hp => resolve_isOk_iff.mp (exists_mapM_eq_ok_iff.mp ⟨_, walked⟩ p hp)) h
  | error failure =>
      obtain ⟨before, p, after, split, earlier, failed⟩ := mapM_eq_error_iff.mp walked
      refine ⟨before, p, after, split, fun p hp => resolve_isOk_iff.mp (earlier p hp), ?_⟩
      rintro ⟨valueType, method, stores⟩
      rw [resolve_of_stores stores] at failed
      cases failed

/-! ### Methods -/

theorem methods_of_unsupported (h : g.Unsupported d r) :
    g.methods d = .error (.ofRejection r) := by
  obtain ⟨before, p, after, valueType, split, earlier, typed, unknown, rfl⟩ := h
  unfold Generator.methods
  refine bind_eq_error_iff.mpr (Or.inl (mapM_eq_error_iff.mpr ⟨before, p, after, split, ?_, ?_⟩))
  · exact fun earlier' he => resolve_isOk_iff.mpr (earlier earlier' he)
  · exact resolve_of_unknown typed unknown

theorem names_of_groups {preferences : List Preference} {resolved : List Resolved}
    {groups : List (List MethodDef)}
    (each : List.Forall₂ (fun p r => g.resolve d p = .ok r) preferences resolved)
    (made : List.Forall₂ (fun r group =>
      accessors g.style r.preference r.valueType r.method = .ok group) resolved groups) :
    groups.flatten.map (·.name) = preferences.flatMap (Preference.accessorNames g.style) := by
  induction each generalizing groups with
  | nil =>
      obtain rfl := List.forall₂_nil_left_iff.mp made
      rfl
  | cons resolves _ ih =>
      obtain ⟨group, rest, first, later, rfl⟩ := List.forall₂_cons_left_iff.mp made
      obtain ⟨rfl, -, -⟩ := resolve_ok resolves
      rw [List.flatten_cons, List.map_append, List.flatMap_cons, ih later,
        (accessors_ok first).names]

theorem methods_names {methods : List MethodDef} (h : g.methods d = .ok methods) :
    methods.map (·.name) = d.methodNames g.style := by
  obtain ⟨resolved, groups, each, made, rfl⟩ := methods_ok h
  rw [List.map_append, List.map_cons, names_of_groups each made]
  rfl

theorem methods_misuses (resolves : ∀ p ∈ d.preferences, g.Resolves p) :
    Misuses (g.methods d) := by
  unfold Generator.methods
  refine Misuses.bind ?_ fun resolved _ => ?_
  · refine Misuses.mapM fun p hp => ?_
    obtain ⟨resolved, done⟩ := resolve_isOk_iff.mpr (resolves p hp)
    rw [done]
    exact misuses_ok resolved
  · refine (misuses_mapError _).bind fun _ _ => ?_
    refine (Misuses.mapM fun r _ => misuses_mapError _).bind fun groups _ => ?_
    exact (misuses_mapError _).bind fun _ _ => misuses_ok _

theorem accessors_isOk_of_resolved {preferences : List Preference} {resolved : List Resolved}
    (each : List.Forall₂ (fun p r => g.resolve d p = .ok r) preferences resolved) :
    (∀ r ∈ resolved, ∃ group,
      accessors g.style r.preference r.valueType r.method = .ok group) ↔
    ∀ p ∈ preferences, ∀ valueType method, g.Stores p valueType method →
      p.IsNamed ∧ (p.writtenValues method).all Value.isWritable = true := by
  induction each with
  | nil => simp
  | @cons p r _ _ resolves _ ih =>
      rw [List.forall_mem_cons, List.forall_mem_cons, ih, accessors_isOk_iff]
      refine and_congr_left fun _ => ⟨fun made valueType method stores => ?_, fun made => ?_⟩
      · obtain rfl := Except.ok.inj ((resolve_of_stores stores).symm.trans resolves)
        exact made
      · obtain ⟨rfl, typed, found⟩ := resolve_ok resolves
        exact made _ _ ⟨typed, found⟩

/-- Where all types are known, the values can be used exactly if each step can use its own. -/
theorem usable_iff (known : ∀ p ∈ d.preferences, g.Resolves p) : g.Usable d ↔
    [d.name].all Value.isWritable = true ∧
    (∀ p ∈ d.preferences, ∀ valueType method, g.Stores p valueType method →
      p.IsNamed ∧ (p.writtenValues method).all Value.isWritable = true) ∧
    (d.store.name :: (d.hook.map (·.method)).toList).all Value.isWritable = true := by
  constructor
  · intro usable
    refine ⟨by simpa using usable.writable.name, fun p hp valueType method stores =>
      ⟨usable.named p hp, usable.writable.accessors p hp valueType method stores⟩, ?_⟩
    rw [List.all_cons, usable.writable.store, Bool.true_and]
    cases declared : d.hook with
    | none => rfl
    | some hook => simpa using usable.writable.hook hook declared
  · rintro ⟨name, accessors, rest⟩
    rw [List.all_cons, Bool.and_eq_true] at rest
    refine ⟨⟨by simpa using name, rest.1, fun hook declared => ?_,
      fun p hp valueType method stores => (accessors p hp valueType method stores).2⟩,
      fun p hp => ?_⟩
    · simpa [declared] using rest.2
    · obtain ⟨valueType, method, stores⟩ := known p hp
      exact (accessors p hp valueType method stores).1

theorem methods_isOk_iff : (∃ methods, g.methods d = .ok methods) ↔
    (∀ p ∈ d.preferences, g.Resolves p) ∧ g.Usable d := by
  have known : (∃ resolved, d.preferences.mapM (g.resolve d) = .ok resolved) ↔
      ∀ p ∈ d.preferences, g.Resolves p :=
    exists_mapM_eq_ok_iff.trans (forall₂_congr fun _ _ => resolve_isOk_iff)
  have steps : (∃ methods, g.methods d = .ok methods) ↔
      (∃ resolved, d.preferences.mapM (g.resolve d) = .ok resolved) ∧
        (∃ u, Value.requireWritable [d.name] = .ok u) ∧
          (∀ p ∈ d.preferences, ∀ valueType method, g.Stores p valueType method →
            p.IsNamed ∧ (p.writtenValues method).all Value.isWritable = true) ∧
            ∃ u, Value.requireWritable (d.store.name :: (d.hook.map (·.method)).toList) =
              .ok u := by
    refine bind_isOk_iff fun resolved each => ?_
    rw [← accessors_isOk_of_resolved (mapM_eq_ok_iff.mp each)]
    refine (bind_isOk_iff fun _ _ => ?_).trans (and_congr_left' mapError_isOk_iff)
    refine (bind_isOk_iff fun _ _ => ?_).trans (and_congr_left' ?_)
    · exact bind_pure_isOk_iff.trans mapError_isOk_iff
    · exact exists_mapM_eq_ok_iff.trans (forall₂_congr fun _ _ => mapError_isOk_iff)
  rw [steps, known, requireWritable_isOk_iff, requireWritable_isOk_iff]
  exact and_congr_right fun known => (usable_iff known).symm

/-! ### The class -/

section made
variable {methods : List MethodDef}

theorem generate_of_repeated {name : Value} (made : g.methods d = .ok methods)
    (found : firstRepeated [] (methods.map (·.name)) = .ok (some name)) :
    g.generate d = .error (.ofRejection ⟨.repeatedMethod d.name name, d.location⟩) := by
  unfold generate
  rw [made]
  show (Except.mapError Failure.misused _ >>= _) = _
  rw [found]
  rfl

theorem generate_of_distinct (made : g.methods d = .ok methods)
    (found : firstRepeated [] (methods.map (·.name)) = .ok none) :
    g.generate d = .ok (g.assemble d methods) := by
  unfold generate
  rw [made]
  show (Except.mapError Failure.misused _ >>= _) = _
  rw [found]
  rfl

theorem generate_of_misuse {misuse : Misuse} (made : g.methods d = .ok methods)
    (failed : firstRepeated [] (methods.map (·.name)) = .error misuse) :
    g.generate d = .error (.misused misuse) := by
  unfold generate
  rw [made]
  show (Except.mapError Failure.misused _ >>= _) = _
  rw [failed]
  rfl

end made

theorem generate_of_unsupported (h : g.Unsupported d r) :
    g.generate d = .error (.ofRejection r) :=
  bind_eq_error_iff.mpr (Or.inl (methods_of_unsupported h))

theorem generate_of_repeats (h : g.Repeats d r) : g.generate d = .error (.ofRejection r) := by
  obtain ⟨known, usable, name, repeated, rfl⟩ := h
  obtain ⟨methods, made⟩ := methods_isOk_iff.mpr ⟨known, usable⟩
  refine generate_of_repeated made ?_
  rw [methods_names made]
  exact firstRepeated_nil_eq_some_iff.mpr repeated

theorem generate_of_accepts (h : g.Accepts d) :
    ∃ c, g.generate d = .ok c ∧ c.methods.map (·.name) = d.methodNames g.style ∧
      ∀ m ∈ c.methods, c.method? m.name = some m := by
  obtain ⟨methods, made⟩ := methods_isOk_iff.mpr ⟨h.resolves, h.usable⟩
  have names := methods_names made
  have done := generate_of_distinct made
    (by rw [names]; exact firstRepeated_nil_eq_none_iff.mpr h.distinct)
  exact ⟨_, done, names, fun m hm => ClassDef.method?_of_mem (generate_names_different done) hm⟩

theorem generate_of_neither (unsupported : ¬∃ r, g.Unsupported d r)
    (repeats : ¬∃ r, g.Repeats d r) (accepts : ¬g.Accepts d) :
    ∃ misuse, g.generate d = .error (.misused misuse) := by
  by_cases known : ∀ p ∈ d.preferences, g.Resolves p
  · by_cases usable : g.Usable d
    · obtain ⟨methods, made⟩ := methods_isOk_iff.mpr ⟨known, usable⟩
      have names := methods_names made
      cases scanned : firstRepeated [] (methods.map (·.name)) with
      | error misuse => exact ⟨misuse, generate_of_misuse made scanned⟩
      | ok repeated =>
          rw [names] at scanned
          cases repeated with
          | none =>
              exact absurd ⟨known, usable, firstRepeated_nil_eq_none_iff.mp scanned⟩ accepts
          | some name =>
              exact absurd ⟨_, known, usable, name, firstRepeated_nil_eq_some_iff.mp scanned, rfl⟩
                repeats
    · obtain ⟨misuse, failed⟩ := (methods_misuses known).exists_error
        fun made => usable (methods_isOk_iff.mp made).2
      exact ⟨misuse, bind_eq_error_iff.mpr (Or.inl failed)⟩
  · obtain ⟨before, p, after, split, earlier, unresolved⟩ := exists_first_unresolved known
    rcases resolves_or g p with resolves | ⟨valueType, typed, unknown⟩ | other
    · exact absurd resolves unresolved
    · exact absurd ⟨_, before, p, after, valueType, split, earlier, typed, unknown, rfl⟩ unsupported
    · refine ⟨.notTypeExpression, bind_eq_error_iff.mpr (Or.inl ?_)⟩
      refine bind_eq_error_iff.mpr
        (Or.inl (mapM_eq_error_iff.mpr ⟨before, p, after, split, ?_, ?_⟩))
      · exact fun earlier' he => resolve_isOk_iff.mpr (earlier earlier' he)
      · exact resolve_of_not_isText other

/-- A declaration is rejected for a type that no store holds or for a repeated name. -/
theorem unsupported_or_repeats_of_rejected (rejected : g.generate d = .error (.rejected r)) :
    g.Unsupported d r ∨ g.Repeats d r := by
  have same : ∀ other, g.generate d = .error (.ofRejection other) → other = r := fun other failed =>
    (ofRejection_eq_rejected_iff.mp (Except.error.inj (failed.symm.trans rejected))).2
  by_cases unsupported : ∃ r, g.Unsupported d r
  · obtain ⟨other, unsupported⟩ := unsupported
    exact Or.inl (same other (generate_of_unsupported unsupported) ▸ unsupported)
  by_cases repeats : ∃ r, g.Repeats d r
  · obtain ⟨other, repeats⟩ := repeats
    exact Or.inr (same other (generate_of_repeats repeats) ▸ repeats)
  by_cases accepts : g.Accepts d
  · obtain ⟨c, made, -⟩ := generate_of_accepts accepts
    rw [made] at rejected
    cases rejected
  · obtain ⟨misuse, failed⟩ := generate_of_neither unsupported repeats accepts
    rw [failed] at rejected
    cases rejected

/-! ### Declarations of the right kinds -/

theorem canWrite_of_isTyped (h : d.IsTyped)
    (stored : ∀ entry ∈ g.table.entries, entry.2.IsTyped) : g.CanWrite d where
  name := Value.isWritable_of_isText h.name
  store := by
    rcases h.store with null | text
    · rw [null]
      rfl
    · exact Value.isWritable_of_isText text
  hook := fun hook declared => Value.isWritable_of_isText (h.hook hook declared)
  accessors := by
    intro p hp valueType method stores
    obtain ⟨before, after, split, -⟩ := List.lookup_eq_some_iff.mp stores.found
    exact (h.preferences p hp).isWritable_writtenValues
      (stored (normalizeType valueType, method) (by simp [split]))

theorem isText_methodNames (style : Naming.Style) (h : d.IsTyped) :
    ∀ name ∈ d.methodNames style, name.isText = true := by
  unfold Declaration.methodNames
  rw [List.cons_append, List.forall_mem_cons, List.forall_mem_append]
  refine ⟨rfl, fun name hn => ?_, by simp [Value.isText]⟩
  obtain ⟨p, hp, hn⟩ := List.mem_flatMap.mp hn
  exact (h.preferences p hp).isText_accessorNames name hn

/-- If all entries have the right kinds, a type is not known, or a name is repeated, or nothing
stands in the way. -/
theorem unsupported_or_repeats_or_accepts (h : d.IsTyped)
    (stored : ∀ entry ∈ g.table.entries, entry.2.IsTyped) :
    (∃ r, g.Unsupported d r) ∨ (∃ r, g.Repeats d r) ∨ g.Accepts d := by
  by_cases known : ∀ p ∈ d.preferences, g.Resolves p
  · have usable : g.Usable d :=
      ⟨canWrite_of_isTyped h stored, fun p hp => (h.preferences p hp).isNamed⟩
    rcases distinct_or_repeatsFirst fun name hn =>
      Value.isKey_of_isText (isText_methodNames g.style h name hn) with distinct | ⟨name, first⟩
    · exact Or.inr (Or.inr ⟨known, usable, distinct⟩)
    · exact Or.inr (Or.inl ⟨_, known, usable, name, first, rfl⟩)
  · obtain ⟨before, p, after, split, earlier, unresolved⟩ := exists_first_unresolved known
    have hp : p ∈ d.preferences := by simp [split]
    rcases resolves_or g p with resolves | ⟨valueType, typed, unknown⟩ | other
    · exact absurd resolves unresolved
    · exact Or.inl ⟨_, before, p, after, valueType, split, earlier, typed, unknown, rfl⟩
    · exact absurd (h.preferences p hp).valueType other

/-- If all entries have the right kinds, only the line of the location can keep the rejection from
being written. -/
theorem ofRejection_of_isTyped (h : d.IsTyped) (rejected : g.Unsupported d r ∨ g.Repeats d r) :
    Failure.ofRejection r =
      if ∀ location, r.location = some location → location.line.isWritable = true then .rejected r
      else .misused .unwritable := by
  have texts : ∀ v ∈ r.reason.values, v.isWritable = true := by
    rcases rejected with
      ⟨_, _, _, _, _, _, _, _, rfl⟩ | ⟨_, _, name, ⟨before, after, split, -⟩, rfl⟩
    · simpa [Reason.values] using Value.isWritable_of_isText h.name
    · have text : name.isText = true := isText_methodNames g.style h name (by simp [split])
      simpa [Reason.values] using
        ⟨Value.isWritable_of_isText h.name, Value.isWritable_of_isText text⟩
  have line : r.values.all Value.isWritable = true ↔
      ∀ location, r.location = some location → location.line.isWritable = true := by
    rw [Rejection.values, List.all_append, List.all_eq_true.mpr texts, Bool.true_and]
    cases r.location <;> simp
  simp only [Failure.ofRejection, line]

/-- What becomes of a declaration: the first type that is not known rejects it, whatever the names;
else the first name of a method that is the same as one before it does; else, if its values can be
used where they stand, the class is made, with these names for its methods and each method under its
name; and in all other cases a value is misused.  If all entries have the right kinds, the other
cases do not occur, and the rejection is what comes out unless its line is too long a number to be
written. -/
theorem generate_outcome (g : Generator) (d : Declaration) :
    (∀ r, g.Unsupported d r → g.generate d = .error (.ofRejection r)) ∧
    (∀ r, g.Repeats d r → g.generate d = .error (.ofRejection r)) ∧
    (g.Accepts d → ∃ c, g.generate d = .ok c ∧ c.methods.map (·.name) = d.methodNames g.style ∧
      ∀ m ∈ c.methods, c.method? m.name = some m) ∧
    ((¬∃ r, g.Unsupported d r) → (¬∃ r, g.Repeats d r) → ¬g.Accepts d →
      ∃ misuse, g.generate d = .error (.misused misuse)) ∧
    (d.IsTyped → (∀ entry ∈ g.table.entries, entry.2.IsTyped) →
      ((∃ r, g.Unsupported d r) ∨ (∃ r, g.Repeats d r) ∨ g.Accepts d) ∧
      ∀ r, g.Unsupported d r ∨ g.Repeats d r → Failure.ofRejection r =
        if ∀ location, r.location = some location → location.line.isWritable = true
        then .rejected r else .misused .unwritable) :=
  ⟨fun _ => generate_of_unsupported, fun _ => generate_of_repeats, generate_of_accepts,
    generate_of_neither, fun typed stored =>
      ⟨unsupported_or_repeats_or_accepts typed stored, fun _ => ofRejection_of_isTyped typed⟩⟩

theorem standard_isTyped : ∀ entry ∈ StorageTable.standard.entries, entry.2.IsTyped := by
  have texts : ∀ entry ∈ StorageTable.standard.entries,
      entry.2.get.isText ∧ entry.2.put.isText ∧ entry.2.default.isText := by
    decide +kernel
  exact fun entry he => ⟨(texts entry he).1, (texts entry he).2.1, (texts entry he).2.2⟩

/-- A class with two preferences that are read by methods of their own names, each with its type. -/
def readingTwo (first second : String × String) (line : Int) : Declaration where
  source := ⟨"modes", "Settings"⟩
  name := "SettingsImpl"
  preferences := [first, second].map fun entry =>
    { name := entry.1, valueType := entry.2, getter := { name := entry.1 } }
  isInterface := false
  store := .default
  hook := none
  location := some ⟨none, .int line⟩
  source_module_ne := by decide
  preferences_ne := List.cons_ne_nil _ _

theorem readingTwo_isTyped (first second : String × String) (line : Int) :
    (readingTwo first second line).IsTyped where
  name := rfl
  preferences := by
    have typed : ∀ name valueType : String,
        ({ name := name, valueType := valueType, getter := { name := name } } :
          Preference).IsTyped :=
      fun _ _ => ⟨rfl, rfl, Or.inl rfl, by simp [Preference.declaredMethods, Mutator.method?,
        Value.isText]⟩
    simp [readingTwo, typed]
  store := Or.inl rfl
  hook := nofun

section readingTwo
variable (name : String) (line : Int)

theorem resolves_int :
    ({} : Generator).Resolves { name := name, valueType := "int", getter := { name := name } } :=
  ⟨"int", ⟨"get_int", "put_int", "0"⟩, rfl, by decide +kernel⟩

theorem readingTwo_unsupported :
    ({} : Generator).Unsupported (readingTwo ("mode", "int") (name, "bytes") line)
      ⟨.unsupportedType "bytes" "SettingsImpl", some ⟨none, .int line⟩⟩ :=
  ⟨[_], _, [], "bytes", rfl, by simpa using resolves_int "mode", rfl, by decide +kernel, rfl⟩

theorem readingTwo_resolves :
    ∀ p ∈ (readingTwo ("mode", "int") (name, "int") line).preferences,
      ({} : Generator).Resolves p := by
  simpa [readingTwo] using ⟨resolves_int "mode", resolves_int name⟩

theorem readingTwo_usable :
    ({} : Generator).Usable (readingTwo ("mode", "int") (name, "int") line) where
  writable := canWrite_of_isTyped (readingTwo_isTyped _ _ _) standard_isTyped
  named := fun p hp => ((readingTwo_isTyped _ _ _).preferences p hp).isNamed

end readingTwo

theorem generate_outcome_readingTwo :
    ({} : Generator).generate (readingTwo ("mode", "int") ("mode", "bytes") 7) =
      .error (.rejected ⟨.unsupportedType "bytes" "SettingsImpl", some ⟨none, .int 7⟩⟩) ∧
    ({} : Generator).generate (readingTwo ("mode", "int") ("mode", "int") 7) =
      .error (.rejected ⟨.repeatedMethod "SettingsImpl" "mode", some ⟨none, .int 7⟩⟩) ∧
    ∃ c, ({} : Generator).generate (readingTwo ("mode", "int") ("flag", "int") 7) = .ok c ∧
      c.methods.map (·.name) =
        [.text "get_instance", .text "mode", .text "flag", .text "__init__", .text "clear",
          .text "begin_transaction"] := by
  refine ⟨?_, ?_, ?_⟩
  · exact (generate_outcome _ _).1 _ (readingTwo_unsupported "mode" 7)
  · refine (generate_outcome _ _).2.1 _
      ⟨readingTwo_resolves _ _, readingTwo_usable _ _, "mode", ?_, rfl⟩
    exact ⟨[.text "get_instance", .text "mode"], _, rfl,
      ⟨by decide, by decide +kernel⟩, by decide +kernel⟩
  · obtain ⟨c, made, names, -⟩ := (generate_outcome _ _).2.2.1
      ⟨readingTwo_resolves "flag" 7, readingTwo_usable _ _, ⟨by decide, by decide +kernel⟩⟩
    exact ⟨c, made, names⟩

/-- A preference with an unknown type in a class on a line whose number is too long to be written:
the class is not made, but no rejection comes out either. -/
theorem unsupported_unreported :
    (readingTwo ("mode", "int") ("flag", "bytes") longNumber).IsTyped ∧
    (∃ r, ({} : Generator).Unsupported
      (readingTwo ("mode", "int") ("flag", "bytes") longNumber) r) ∧
    ¬∃ r, ({} : Generator).generate (readingTwo ("mode", "int") ("flag", "bytes") longNumber) =
      .error (.rejected r) := by
  have unsupported := readingTwo_unsupported "flag" longNumber
  refine ⟨readingTwo_isTyped _ _ _, ⟨_, unsupported⟩, ?_⟩
  have unwritable : ∀ reason,
      Failure.ofRejection ⟨reason, some ⟨none, .int longNumber⟩⟩ = .misused .unwritable :=
    fun reason => ofRejection_of_unwritable rfl longNumber_unwritable
  rw [generate_of_unsupported unsupported, unwritable]
  simp

end Generator

end Preferences

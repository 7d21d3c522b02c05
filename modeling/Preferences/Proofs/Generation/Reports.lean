import Preferences.Proofs.Settings.Types
import Preferences.Source.Layout

/-! # The report on declarations of the right kinds

A declaration with entries of the right kinds is generated or rejected, or else it is rejected on a
line whose number is too long to be written (`Generator.Reportable`).  So the report on a list of
them holds the classes that are generated, in order, and for every other one an error that tells
which class it is, why it is rejected and where (`Diagnoses`, `generateAll_of_reportable`); or a
line that cannot be written stops everything (`generateAll_of_unreportable`).  What is generated can
be written as a module (`renderModule_isOk`). -/

namespace Preferences

namespace Generator

variable {g : Generator} {d : Declaration} {ds : List Declaration}

/-- The line of every rejection of the declaration can be written. -/
def Reportable (g : Generator) (d : Declaration) : Prop :=
  ∀ r, g.Unsupported d r ∨ g.Repeats d r →
    ∀ location, r.location = some location → location.line.isWritable = true

/-- The classes of those declarations that are generated, in order. -/
def generated (g : Generator) (ds : List Declaration) : List ClassDef :=
  ds.filterMap fun d => (g.generate d).toOption

/-- The declaration is generated or rejected. -/
def Settled (g : Generator) (d : Declaration) : Prop :=
  (∃ c, g.generate d = .ok c) ∨ ∃ r, g.generate d = .error (.rejected r)

/-- The declarations that are not generated, in order. -/
def refused (g : Generator) (ds : List Declaration) : List Declaration :=
  ds.filter fun d => (g.generate d).toOption.isNone

/-- The place of the first preference whose type no store holds, or of the class where that has none
of its own or all types are known. -/
def Blames (g : Generator) (d : Declaration) (place : Option Location) : Prop :=
  (∃ before p after, d.preferences = before ++ p :: after ∧
    (∀ earlier ∈ before, g.Resolves earlier) ∧ ¬g.Resolves p ∧
    place = (p.location <|> d.location)) ∨
  (∀ p ∈ d.preferences, g.Resolves p) ∧ place = d.location

/-- The diagnostic is an error that tells which class is rejected, why, and where. -/
structure Diagnoses (g : Generator) (d : Declaration) (e : Diagnostic) : Prop where
  severity : e.severity = .error
  className : e.className = d.name
  raised : ∃ r, g.generate d = .error (.rejected r) ∧ e.message = r.message
  location : g.Blames d e.location

/-! ### One declaration -/

/-- A declaration that is generated or rejected has no line that cannot be written. -/
theorem reportable_of_settled (settled : g.Settled d) : g.Reportable d := by
  intro r stops
  have failed : g.generate d = .error (.ofRejection r) :=
    stops.elim generate_of_unsupported generate_of_repeats
  rcases settled with ⟨c, made⟩ | ⟨r', refused⟩
  · rw [made] at failed
    cases failed
  · have same : Failure.ofRejection r = .rejected r' :=
      Except.error.inj (failed.symm.trans refused)
    have writable := (ofRejection_eq_rejected_iff.mp same).1
    rw [Rejection.values, List.all_append, Bool.and_eq_true] at writable
    intro location located
    simpa [located] using writable.2

theorem generate_of_not_reportable (long : ¬g.Reportable d) :
    g.generate d = .error (.misused .unwritable) := by
  unfold Reportable at long
  push Not at long
  obtain ⟨r, stops, location, located, unwritable⟩ := long
  have failed : g.generate d = .error (.ofRejection r) :=
    stops.elim generate_of_unsupported generate_of_repeats
  rw [failed, ofRejection_of_unwritable located (Bool.eq_false_iff.mpr unwritable)]

theorem settled_of_reportable (typed : d.IsTyped)
    (stored : ∀ entry ∈ g.table.entries, entry.2.IsTyped) (reportable : g.Reportable d) :
    g.Settled d := by
  have rejected : ∀ {r}, g.Unsupported d r ∨ g.Repeats d r → Failure.ofRejection r = .rejected r :=
    fun {r} h => by rw [ofRejection_of_isTyped typed h, if_pos (reportable r h)]
  rcases unsupported_or_repeats_or_accepts typed stored with ⟨r, h⟩ | ⟨r, h⟩ | accepts
  · exact Or.inr ⟨r, by rw [generate_of_unsupported h, rejected (Or.inl h)]⟩
  · exact Or.inr ⟨r, by rw [generate_of_repeats h, rejected (Or.inr h)]⟩
  · obtain ⟨c, made, -⟩ := generate_of_accepts accepts
    exact Or.inl ⟨c, made⟩

/-- The error for a rejected declaration tells why it is rejected, and where. -/
theorem diagnoses_of_rejected {r : Rejection} (failed : g.generate d = .error (.rejected r)) :
    g.Diagnoses d (r.diagnostic d) where
  severity := rfl
  className := rfl
  raised := ⟨r, failed, rfl⟩
  location := by
    rcases unsupported_or_repeats_of_rejected failed with
      ⟨before, p, after, valueType, split, earlier, typed, unknown, rfl⟩ | ⟨known, -, name, -, rfl⟩
    · exact Or.inl ⟨before, p, after, split, earlier, not_resolves_of_unknown typed unknown, rfl⟩
    · exact Or.inr ⟨known, rfl⟩

/-! ### All declarations -/

/-- Declarations that are generated or rejected are reported on in order: the classes of those that
are generated, and an error for every other one. -/
theorem generateAll_of_settled (settled : ∀ d ∈ ds, g.Settled d) :
    ∃ report, g.generateAll ds = .ok report ∧ report.types = g.generated ds ∧
      List.Forall₂ g.Diagnoses (g.refused ds) report.diagnostics := by
  induction ds with
  | nil => exact ⟨{}, rfl, rfl, .nil⟩
  | cons d rest ih =>
      obtain ⟨now, later⟩ := List.forall_mem_cons.mp settled
      obtain ⟨report, reported, types, diagnosed⟩ := ih later
      rw [generateAll_cons, reported, addTo]
      rcases now with ⟨c, made⟩ | ⟨r, failed⟩
      · refine ⟨({ types := [c] } : Report).append report, by rw [made]; rfl, ?_, ?_⟩
        · simp [Report.append, types, generated, made, Except.toOption]
        · simpa [Report.append, refused, made, Except.toOption] using diagnosed
      · refine ⟨({ diagnostics := [r.diagnostic d] } : Report).append report, by rw [failed]; rfl,
          ?_, ?_⟩
        · simp [Report.append, types, generated, failed, Except.toOption]
        · simpa [Report.append, refused, failed, Except.toOption] using
            ⟨diagnoses_of_rejected failed, diagnosed⟩

/-- A report of errors has none exactly if every declaration is generated. -/
theorem ok_iff_of_diagnosed {report : Report}
    (diagnosed : List.Forall₂ g.Diagnoses (g.refused ds) report.diagnostics) :
    report.ok = true ↔ ∀ d ∈ ds, ∃ c, g.generate d = .ok c := by
  have errors : ∀ e ∈ report.diagnostics, e.severity = .error :=
    forall_of_forall₂ diagnosed (fun _ _ => trivial) fun _ _ _ told => told.severity
  have severe : report.errors = report.diagnostics :=
    List.filter_eq_self.mpr fun e he => decide_eq_true (errors e he)
  have none : report.diagnostics = [] ↔ g.refused ds = [] := by
    rw [← List.length_eq_zero_iff, ← List.length_eq_zero_iff, diagnosed.length_eq]
  rw [Report.ok, severe, List.isEmpty_iff, none, refused, List.filter_eq_nil_iff]
  refine forall₂_congr fun d _ => ?_
  cases g.generate d <;> simp [Except.toOption]

theorem generateAll_of_stopped {misuse : Misuse}
    (each : ∀ d ∈ ds, g.Settled d ∨ g.generate d = .error (.misused misuse))
    (stops : ∃ d ∈ ds, g.generate d = .error (.misused misuse)) :
    g.generateAll ds = .error (.misused misuse) := by
  unfold generateAll
  generalize ({} : Report) = r
  induction ds generalizing r with
  | nil =>
      obtain ⟨d, hd, -⟩ := stops
      cases hd
  | cons d rest ih =>
      obtain ⟨now, later⟩ := List.forall_mem_cons.mp each
      rw [List.foldlM_cons, addTo]
      by_cases here : g.generate d = .error (.misused misuse)
      · rw [here]
        rfl
      · have next : ∃ d ∈ rest, g.generate d = .error (.misused misuse) := by
          simpa [here] using stops
        rcases now.resolve_right here with ⟨c, made⟩ | ⟨rejection, refused⟩
        · rw [made]
          exact ih later next _
        · rw [refused]
          exact ih later next _

section typed
variable (typed : ∀ d ∈ ds, d.IsTyped) (stored : ∀ entry ∈ g.table.entries, entry.2.IsTyped)
include typed stored

theorem generateAll_of_reportable (reportable : ∀ d ∈ ds, g.Reportable d) :
    ∃ report, g.generateAll ds = .ok report ∧ report.types = g.generated ds ∧
      List.Forall₂ g.Diagnoses (g.refused ds) report.diagnostics :=
  generateAll_of_settled fun d hd => settled_of_reportable (typed d hd) stored (reportable d hd)

theorem generateAll_of_unreportable (long : ¬∀ d ∈ ds, g.Reportable d) :
    g.generateAll ds = .error (.misused .unwritable) := by
  push Not at long
  obtain ⟨d, hd, long⟩ := long
  refine generateAll_of_stopped (fun d hd => ?_) ⟨d, hd, generate_of_not_reportable long⟩
  by_cases reportable : g.Reportable d
  · exact Or.inl (settled_of_reportable (typed d hd) stored reportable)
  · exact Or.inr (generate_of_not_reportable reportable)

end typed

end Generator

/-! ### The module -/

theorem ClassDef.namesIn_eq_flatMap (cs : List ClassDef) :
    ClassDef.namesIn cs = cs.flatMap ClassDef.names := by
  induction cs with
  | nil => rfl
  | cons c rest ih => rw [ClassDef.namesIn, List.flatMap_cons, ih]

theorem renderModule_of_writable {header : Value} {classes : List ClassDef}
    (first : header.isWritable = true)
    (keys : ∀ i ∈ classes.flatMap (·.imports), i.module.isKey = true)
    (modules : ∀ i ∈ classes.flatMap (·.imports), i.module.isWritable = true)
    (names : ∀ name ∈ ClassDef.namesIn classes, name.isWritable = true) :
    renderModule header classes = .ok (moduleText header.plain classes) := by
  have header : Value.requireWritable [header] = .ok () :=
    requireWritable_eq_ok_iff.mpr (by simp [first])
  have keys : ((classes.flatMap (·.imports)).map (·.module)).all (·.isKey) = true := by
    rw [List.all_map, List.all_eq_true]
    exact keys
  have rest : Value.requireWritable ((classes.flatMap (·.imports)).map (·.module) ++
      ClassDef.namesIn classes) = .ok () := by
    refine requireWritable_eq_ok_iff.mpr (List.all_eq_true.mpr ?_)
    rw [List.forall_mem_append, List.forall_mem_map]
    exact ⟨modules, names⟩
  simp only [renderModule, header, keys, rest, Bool.not_true, Bool.false_eq_true, if_false, ok_bind]
  rfl

namespace Generator

variable {g : Generator} {d : Declaration} {c : ClassDef}

theorem isText_names (typed : d.IsTyped) (made : g.generate d = .ok c) :
    ∀ name ∈ c.names, name.isText = true := by
  obtain ⟨methods, built, -, rfl⟩ := generate_ok made
  have own := isText_methodNames g.style typed
  rw [← methods_names built] at own
  have nested : ∀ name ∈ ClassDef.namesIn [Members.transaction d.name.plain],
      name.isText = true := by
    simp [ClassDef.names, ClassDef.namesIn, Members.transaction, Members.transactionConstructor,
      Members.commit, Members.rollback, Members.enter, Members.leave, Value.isText]
  rw [assemble, ClassDef.names, List.forall_mem_cons, List.forall_mem_append]
  exact ⟨typed.name, own, nested⟩

/-- The modules that a generated class imports are texts if the one of its support is. -/
theorem isText_imports (runtime : g.runtimeModule.isText = true) (made : g.generate d = .ok c) :
    ∀ i ∈ c.imports, i.module.isText = true := by
  obtain ⟨methods, -, -, rfl⟩ := generate_ok made
  rw [assemble, imports]
  simp only [List.forall_mem_cons]
  exact ⟨rfl, rfl, rfl, rfl, runtime, by simp⟩

/-- What is generated from declarations with entries of the right kinds can be written as a
module. -/
theorem renderModule_isOk {header : Value} {ds : List Declaration} (text : header.isText = true)
    (runtime : g.runtimeModule.isText = true) (typed : ∀ d ∈ ds, d.IsTyped) :
    ∃ output, renderModule header (g.generated ds) = .ok output := by
  have origin : ∀ c ∈ g.generated ds, ∃ d ∈ ds, g.generate d = .ok c := by
    intro c hc
    obtain ⟨d, hd, kept⟩ := List.mem_filterMap.mp hc
    obtain ⟨c', made⟩ := exists_ok_of_isSome (by rw [kept]; rfl)
    rw [made] at kept
    obtain rfl := Option.some.inj kept
    exact ⟨d, hd, made⟩
  have modules : ∀ i ∈ (g.generated ds).flatMap (·.imports), i.module.isText = true := by
    intro i hi
    obtain ⟨c, hc, hi⟩ := List.mem_flatMap.mp hi
    obtain ⟨d, -, made⟩ := origin c hc
    exact isText_imports runtime made i hi
  have names : ∀ name ∈ ClassDef.namesIn (g.generated ds), name.isText = true := by
    rw [ClassDef.namesIn_eq_flatMap]
    intro name hn
    obtain ⟨c, hc, hn⟩ := List.mem_flatMap.mp hn
    obtain ⟨d, hd, made⟩ := origin c hc
    exact isText_names (typed d hd) made name hn
  exact ⟨_, renderModule_of_writable (Value.isWritable_of_isText text)
    (fun i hi => Value.isKey_of_isText (modules i hi))
    (fun i hi => Value.isWritable_of_isText (modules i hi))
    (fun name hn => Value.isWritable_of_isText (names name hn))⟩

end Generator

end Preferences

import Preferences.Proofs.Generation.Assembly
import Preferences.Proofs.Source.Statements

/-! # What the base of a generated class stands for

The classes of a report are written into one module, where the name of the type that a class extends
is looked up among the names of all of them.  All imports stand before the classes, group by group,
so the name is that of the source only if no class before has it, no import of the runtime module
takes it over, and no other source of the same name comes from a module that is later in the order
(`base_binding_iff`).  Nothing in the generation sees to that (`base_of_other_module`). -/

namespace Preferences

open Source

/-- The names that a class asks of the runtime module. -/
def Declaration.runtimeNames (d : Declaration) : List String :=
  ["Editor", "MissingContextError", "Store", "StoreContext"]
    ++ if d.store.isDefault then ["get_default_store"] else []

namespace Generator

variable {g : Generator} {declarations : List Declaration} {classes : List ClassDef}

theorem assemble_of_generate {d : Declaration} {c : ClassDef} (h : g.generate d = .ok c) :
    ∃ methods, c = g.assemble d methods := by
  obtain ⟨methods, -, -, same⟩ := generate_ok h
  exact ⟨methods, same⟩

/-! ### The imports of all classes -/

/-- The import of the type that a class extends. -/
def sourceImport (d : Declaration) : Import := ⟨d.source.module, [d.source.name], 1⟩

/-- The import of what a class needs at runtime. -/
def runtimeImport (g : Generator) (d : Declaration) : Import :=
  ⟨g.runtimeModule, d.runtimeNames, 2⟩

def importsOf (g : Generator) (declarations : List Declaration) : List Import :=
  declarations.flatMap g.imports

theorem flatMap_imports
    (each : List.Forall₂ (fun d c => g.generate d = .ok c) declarations classes) :
    classes.flatMap (·.imports) = g.importsOf declarations := by
  induction each with
  | nil => rfl
  | cons made _ ih =>
      obtain ⟨methods, rfl⟩ := assemble_of_generate made
      rw [List.flatMap_cons, ih]
      rfl

theorem mem_importsOf {i : Import} (h : i ∈ g.importsOf declarations) :
    i.group = 0 ∨ ∃ d ∈ declarations, i = sourceImport d ∨ i = g.runtimeImport d := by
  obtain ⟨d, hd, hi⟩ := List.mem_flatMap.mp h
  simp only [Generator.imports, List.mem_cons, List.not_mem_nil, or_false] at hi
  rcases hi with rfl | rfl | rfl | rfl | rfl
  · exact Or.inl rfl
  · exact Or.inl rfl
  · exact Or.inl rfl
  · exact Or.inr ⟨d, hd, Or.inl rfl⟩
  · exact Or.inr ⟨d, hd, Or.inr rfl⟩

theorem sourceImport_mem {d : Declaration} (hd : d ∈ declarations) :
    sourceImport d ∈ g.importsOf declarations :=
  List.mem_flatMap.mpr ⟨d, hd, by simp [Generator.imports, sourceImport]⟩

theorem runtimeImport_mem {d : Declaration} (hd : d ∈ declarations) :
    g.runtimeImport d ∈ g.importsOf declarations :=
  List.mem_flatMap.mpr
    ⟨d, hd, by simp [Generator.imports, runtimeImport, Declaration.runtimeNames]⟩

theorem mem_sourceGroup {i : Import} :
    i ∈ g.importsOf declarations ∧ i.group = 1 ↔ ∃ d ∈ declarations, i = sourceImport d := by
  constructor
  · rintro ⟨hi, of_group⟩
    rcases mem_importsOf hi with none | ⟨d, hd, rfl | rfl⟩
    · omega
    · exact ⟨d, hd, rfl⟩
    · cases of_group
  · rintro ⟨d, hd, rfl⟩
    exact ⟨sourceImport_mem hd, rfl⟩

theorem mem_runtimeGroup {i : Import} :
    i ∈ g.importsOf declarations ∧ i.group = 2 ↔ ∃ d ∈ declarations, i = g.runtimeImport d := by
  constructor
  · rintro ⟨hi, of_group⟩
    rcases mem_importsOf hi with none | ⟨d, hd, rfl | rfl⟩
    · omega
    · cases of_group
    · exact ⟨d, hd, rfl⟩
  · rintro ⟨d, hd, rfl⟩
    exact ⟨runtimeImport_mem hd, rfl⟩

theorem groups_importsOf (some : declarations ≠ []) :
    groups (g.importsOf declarations) = [0, 1, 2] := by
  have members : ∀ group, group ∈ groups (g.importsOf declarations) ↔ group ∈ [0, 1, 2] := by
    intro group
    rw [mem_groups]
    constructor
    · rintro ⟨i, hi, rfl⟩
      rcases mem_importsOf hi with none | ⟨d, -, rfl | rfl⟩
      · simp [none]
      · simp [sourceImport]
      · simp [runtimeImport]
    · obtain ⟨d, hd⟩ := List.exists_mem_of_ne_nil _ some
      intro h
      simp only [List.mem_cons, List.not_mem_nil, or_false] at h
      rcases h with rfl | rfl | rfl
      · exact ⟨_, List.mem_flatMap.mpr ⟨d, hd, List.mem_cons_self⟩, rfl⟩
      · exact ⟨_, sourceImport_mem hd, rfl⟩
      · exact ⟨_, runtimeImport_mem hd, rfl⟩
  have same : (groups (g.importsOf declarations)).Perm [0, 1, 2] :=
    (List.perm_ext_iff_of_nodup (nodup_groups _) (by decide)).mpr members
  exact same.eq_of_pairwise (fun _ _ _ _ => le_antisymm) (groups_pairwise _) (by decide)

/-! ### What the imports bind -/

section binding
variable {name module : String}

/-- A name that a class asks of the runtime module comes from there. -/
theorem lastBinding?_runtimeGroup_iff :
    lastBinding? name (groupStatements (g.importsOf declarations) 2) = some (.imported module) ↔
      (∃ d ∈ declarations, name ∈ d.runtimeNames) ∧ g.runtimeModule.plain = module := by
  rw [lastBinding?_groupStatements_iff]
  constructor
  · rintro ⟨⟨i, hi, of_group, asked, rfl⟩, -⟩
    obtain ⟨d, hd, rfl⟩ := mem_runtimeGroup.mp ⟨hi, of_group⟩
    exact ⟨⟨d, hd, asked⟩, rfl⟩
  · rintro ⟨⟨d, hd, asked⟩, rfl⟩
    refine ⟨⟨_, runtimeImport_mem hd, rfl, asked, rfl⟩, fun i hi of_group _ => ?_⟩
    obtain ⟨d, -, rfl⟩ := mem_runtimeGroup.mp ⟨hi, of_group⟩
    exact le_rfl

theorem lastBinding?_runtimeGroup_eq_none_iff :
    lastBinding? name (groupStatements (g.importsOf declarations) 2) = none ↔
      ¬∃ d ∈ declarations, name ∈ d.runtimeNames := by
  rw [lastBinding?_groupStatements_eq_none_iff]
  · constructor
    · rintro free ⟨d, hd, asked⟩
      exact free _ (runtimeImport_mem hd) rfl asked
    · intro nobody i hi of_group asked
      obtain ⟨d, hd, rfl⟩ := mem_runtimeGroup.mp ⟨hi, of_group⟩
      exact nobody ⟨d, hd, asked⟩
  · intro i hi of_group
    obtain ⟨d, -, rfl⟩ := mem_runtimeGroup.mp ⟨hi, of_group⟩
    exact List.cons_ne_nil _ _

/-- The name of a source comes from the last of the modules that have a source of this name. -/
theorem lastBinding?_sourceGroup_iff :
    lastBinding? name (groupStatements (g.importsOf declarations) 1) = some (.imported module) ↔
      (∃ d ∈ declarations, d.source.name = name ∧ d.source.module = module) ∧
        ∀ d ∈ declarations, d.source.name = name → d.source.module ≤ module := by
  rw [lastBinding?_groupStatements_iff]
  constructor
  · rintro ⟨⟨i, hi, of_group, asked, rfl⟩, upper⟩
    obtain ⟨d, hd, rfl⟩ := mem_sourceGroup.mp ⟨hi, of_group⟩
    refine ⟨⟨d, hd, (List.mem_singleton.mp asked).symm, rfl⟩, fun other ho same => ?_⟩
    exact upper _ (sourceImport_mem ho) rfl (List.mem_singleton.mpr same.symm)
  · rintro ⟨⟨d, hd, rfl, rfl⟩, upper⟩
    refine ⟨⟨_, sourceImport_mem hd, rfl, List.mem_singleton_self _, rfl⟩, ?_⟩
    intro i hi of_group asked
    obtain ⟨other, ho, rfl⟩ := mem_sourceGroup.mp ⟨hi, of_group⟩
    exact upper other ho (List.mem_singleton.mp asked).symm

theorem lastBinding?_sourceGroup_ne_none {d : Declaration} (hd : d ∈ declarations) :
    lastBinding? d.source.name (groupStatements (g.importsOf declarations) 1) ≠ none := by
  rw [Ne, lastBinding?_groupStatements_eq_none_iff]
  · intro free
    exact free _ (sourceImport_mem hd) rfl (List.mem_singleton_self _)
  · intro i hi of_group
    obtain ⟨d, -, rfl⟩ := mem_sourceGroup.mp ⟨hi, of_group⟩
    exact List.cons_ne_nil _ _

/-- What the name of a source is bound to in front of the classes. -/
theorem lastBinding?_headStatements_iff
    (each : List.Forall₂ (fun d c => g.generate d = .ok c) declarations classes)
    {d : Declaration} (hd : d ∈ declarations) :
    lastBinding? d.source.name (headStatements classes) = some (.imported module) ↔
      if ∃ other ∈ declarations, d.source.name ∈ other.runtimeNames then
        g.runtimeModule.plain = module
      else (∃ other ∈ declarations,
          other.source.name = d.source.name ∧ other.source.module = module) ∧
        ∀ other ∈ declarations,
          other.source.name = d.source.name → other.source.module ≤ module := by
  rw [headStatements, flatMap_imports each, importStatements,
    groups_importsOf (List.ne_nil_of_mem hd), ← List.singleton_append]
  simp only [List.flatMap_cons, List.flatMap_nil, List.append_nil, lastBinding?_append]
  split_ifs with taken
  · have bound : lastBinding? d.source.name (groupStatements (g.importsOf declarations) 2) =
        some (.imported g.runtimeModule.plain) := lastBinding?_runtimeGroup_iff.mpr ⟨taken, rfl⟩
    rw [bound]
    simp
  · rw [lastBinding?_runtimeGroup_eq_none_iff.mpr taken, Option.none_or,
      ← lastBinding?_sourceGroup_iff (g := g)]
    obtain ⟨origin, bound⟩ :=
      Option.ne_none_iff_exists'.mp (lastBinding?_sourceGroup_ne_none (g := g) hd)
    simp only [bound, Option.some_or]

end binding

/-! ### The classes of a report -/

theorem bases_of_generate {d : Declaration} {c : ClassDef} (h : g.generate d = .ok c) :
    c.bases = [d.source] := by
  obtain ⟨methods, rfl⟩ := assemble_of_generate h
  unfold ClassDef.bases assemble
  cases d.isInterface <;> rfl

theorem name_of_generate {d : Declaration} {c : ClassDef} (h : g.generate d = .ok c) :
    c.name = d.name := by
  obtain ⟨methods, rfl⟩ := assemble_of_generate h
  rfl

/-- The first line of a generated class names the type that it extends. -/
theorem head?_lines_of_generate {d : Declaration} {c : ClassDef} (h : g.generate d = .ok c) :
    c.lines.head? = some ("class " ++ d.name.plain ++
      (if d.source.name = "" then "" else "(" ++ d.source.name ++ ")") ++ ":") := by
  have first : c.lines.head? = some c.headLine := by
    cases c
    rw [ClassDef.lines, layOut]
    rfl
  have base : ", ".intercalate [d.source.name] = d.source.name := rfl
  rw [first, ClassDef.headLine, bases_of_generate h, name_of_generate h, List.map_singleton, base]
  simp only [beq_iff_eq]

theorem forall_name_of_generate {p : Value → Prop}
    (each : List.Forall₂ (fun d c => g.generate d = .ok c) declarations classes) :
    (∀ c ∈ classes, p c.name) ↔ ∀ d ∈ declarations, p d.name := by
  induction each with
  | nil => simp
  | cons made _ ih => rw [List.forall_mem_cons, List.forall_mem_cons, name_of_generate made, ih]

theorem text_of_renderModule {header : Value} {text : String}
    (h : renderModule header classes = .ok text) :
    text = "\n".intercalate (moduleLines header.plain classes) ++ "\n" := by
  unfold renderModule at h
  obtain ⟨-, -, h⟩ := bind_eq_ok_iff.mp h
  dsimp only at h
  split at h
  · cases h
  · obtain ⟨-, -, h⟩ := bind_eq_ok_iff.mp h
    exact (Except.ok.inj h).symm

/-- In a report without errors, the name that a class extends stands for its own source in exactly
one case: no class before it has the name; if a class of the report asks the runtime module for the
name, the source is in the runtime module; and if none does, no source of the name comes from a
module that is later in the order. -/
theorem base_binding_iff {report : Report} (generated : g.generateAll declarations = .ok report)
    (ok : report.ok = true) (header : Value) :
    (∀ text, renderModule header report.types = .ok text →
      text = "\n".intercalate (moduleLines header.plain report.types) ++ "\n" ∧
      written (moduleLines header.plain report.types) = ("# " ++ header.plain) ::
        written ((moduleStatements report.types).flatMap Statement.lines)) ∧
    ∀ before d after, declarations = before ++ d :: after → ∃ earlier c later,
      report.types = earlier ++ c :: later ∧
      moduleStatements report.types =
        headStatements report.types ++ earlier.map .classDef ++ .classDef c :: later.map .classDef ∧
      List.Forall₂ (fun d c => g.generate d = .ok c) before earlier ∧ g.generate d = .ok c ∧
      c.bases = [d.source] ∧ c.lines.head? = some ("class " ++ d.name.plain ++
        (if d.source.name = "" then "" else "(" ++ d.source.name ++ ")") ++ ":") ∧
      (lastBinding? d.source.name (headStatements report.types ++ earlier.map .classDef) =
          some (.imported d.source.module) ↔
        (∀ other ∈ before, other.name.plain ≠ d.source.name) ∧
          if ∃ other ∈ declarations, d.source.name ∈ other.runtimeNames then
            g.runtimeModule.plain = d.source.module
          else ∀ other ∈ declarations,
            other.source.name = d.source.name → other.source.module ≤ d.source.module) := by
  have each := generateAll_ok generated ok
  constructor
  · intro text rendered
    exact ⟨text_of_renderModule rendered, written_moduleLines header.plain report.types⟩
  · rintro before d after rfl
    have first := (List.forall₂_take_append _ before (d :: after) each.flip).flip
    obtain ⟨c, later, made, -, rest⟩ :=
      List.forall₂_cons_right_iff.mp (List.forall₂_drop_append _ before (d :: after) each.flip)
    have types : report.types = report.types.take before.length ++ c :: later := by
      rw [← rest, List.take_append_drop]
    refine ⟨_, c, later, types, ?_, first, made, bases_of_generate made,
      head?_lines_of_generate made, ?_⟩
    · rw [moduleStatements, List.append_assoc, ← List.map_cons, ← List.map_append, ← types]
    · have member : d ∈ before ++ d :: after := by simp
      have own : ∃ other ∈ before ++ d :: after,
          other.source.name = d.source.name ∧ other.source.module = d.source.module :=
        ⟨d, member, rfl, rfl⟩
      rw [lastBinding?_append, Option.or_eq_some_iff, or_iff_right lastBinding?_classDef_ne,
        lastBinding?_classDef_eq_none_iff,
        forall_name_of_generate (p := fun name => name.plain ≠ d.source.name) first,
        lastBinding?_headStatements_iff each member]
      simp only [own, true_and]

/-- A class with one preference that extends the type `Base` of a module. -/
def extending (module name : String) (module_ne : module ≠ "") : Declaration where
  source := ⟨module, "Base"⟩
  name := name
  preferences := [{ name := "flag", valueType := "bool", getter := { name := "flag" } }]
  isInterface := false
  store := .default
  hook := none
  location := none
  source_module_ne := module_ne
  preferences_ne := List.cons_ne_nil _ _

/-- Two classes that extend types of the same name. -/
def rivals : List Declaration :=
  [extending "a" "First" (by decide), extending "b" "Second" (by decide)]

theorem generateAll_rivals :
    ∃ report, ({} : Generator).generateAll rivals = .ok report ∧ report.ok = true := by
  have fine : (({} : Generator).generateAll rivals).toOption.any Report.ok = true := by
    decide +kernel
  cases made : ({} : Generator).generateAll rivals with
  | error failure =>
      rw [made] at fine
      cases fine
  | ok report =>
      rw [made] at fine
      exact ⟨report, rfl, fine⟩

/-- Of two rivals, the second extends its own source. -/
theorem base_binding_iff_rivals :
    ∃ report first second later, ({} : Generator).generateAll rivals = .ok report ∧
      report.ok = true ∧ report.types = first :: second :: later ∧
      second.bases = [⟨"b", "Base"⟩] ∧
      lastBinding? "Base" (headStatements report.types ++ [.classDef first]) =
        some (.imported "b") := by
  obtain ⟨report, generated, ok⟩ := generateAll_rivals
  obtain ⟨earlier, second, later, types, -, before, -, bases, -, binding⟩ :=
    (base_binding_iff generated ok .null).2 [extending "a" "First" (by decide)] _ [] rfl
  obtain ⟨first, none, -, nobody, rfl⟩ := List.forall₂_cons_left_iff.mp before
  obtain rfl := List.forall₂_nil_left_iff.mp nobody
  exact ⟨report, first, second, later, generated, ok, types, bases, binding.mpr (by decide)⟩

/-- A report without errors in which the first class extends a type of another module than its
source: the source of the second class has the same name. -/
theorem base_of_other_module :
    ∃ report, ({} : Generator).generateAll rivals = .ok report ∧ report.ok = true ∧
      ∃ first second, report.types = [first, second] ∧ first.bases = [⟨"a", "Base"⟩] ∧
        lastBinding? "Base" (headStatements report.types) = some (.imported "b") := by
  obtain ⟨report, generated, ok⟩ := generateAll_rivals
  have each := generateAll_ok generated ok
  obtain ⟨first, rest, made, last, types⟩ := List.forall₂_cons_left_iff.mp each
  obtain ⟨second, rest, -, none, rfl⟩ := List.forall₂_cons_left_iff.mp last
  obtain rfl := List.forall₂_nil_left_iff.mp none
  refine ⟨report, generated, ok, first, second, types, bases_of_generate made, ?_⟩
  exact (lastBinding?_headStatements_iff each (List.mem_cons_self)).mpr (by decide)

end Generator

end Preferences

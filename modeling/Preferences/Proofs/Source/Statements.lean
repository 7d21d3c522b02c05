import Preferences.Proofs.Source.Merging
import Preferences.Source.Layout

/-! # The statements of a module

A module that is written for some classes is a list of statements, imports first and the classes
after them; apart from the comment at its head and empty lines, its lines are theirs
(`written_moduleLines`).  All statements share the names of the module: where a name is used, it
stands for what the last statement before has bound it to (`lastBinding?`).  Within the imports of
a group, that is the import from the last module that has the name
(`lastBinding?_groupStatements_iff`). -/

namespace Preferences.Source

inductive Statement
  | importModule (module : String)
  | importNames (module : String) (names : List String)
  | classDef (c : ClassDef)

/-- What a name can be bound to. -/
inductive Origin
  /-- A module. -/
  | package
  /-- What a module has under the name. -/
  | imported (module : String)
  /-- A class that the module defines. -/
  | defined (c : ClassDef)

namespace Statement

/-- The lines of a statement. -/
def lines : Statement → List String
  | importModule module => ["import " ++ module]
  | importNames module names => fromImport module names
  | classDef c => c.lines

/-- What the statement binds a name to, if it binds it: an import of a module binds the first part
of its name. -/
def binds? (name : String) : Statement → Option Origin
  | importModule module =>
    if String.ofList (module.toList.takeWhile (· != '.')) = name then some .package else none
  | importNames module names => if name ∈ names then some (.imported module) else none
  | classDef c => if c.name.plain = name then some (.defined c) else none

end Statement

/-- What a name is bound to after these statements.  Names are compared as texts; an interpreter
compares them in their compatibility normal form (NFKC), in which different texts may be one
name. -/
def lastBinding? (name : String) : List Statement → Option Origin
  | [] => none
  | statement :: rest => (lastBinding? name rest).or (statement.binds? name)

def groupStatements (imports : List Import) (group : Int) : List Statement :=
  let modules := mergedModules imports group
  ((modules.filter (·.2.isEmpty)).map fun m => .importModule m.1)
    ++ (modules.filter (!·.2.isEmpty)).map fun m => .importNames m.1 m.2

def importStatements (imports : List Import) : List Statement :=
  (groups imports).flatMap (groupStatements imports)

/-- The statements in front of the classes of a module. -/
def headStatements (classes : List ClassDef) : List Statement :=
  .importNames "__future__" ["annotations"] :: importStatements (classes.flatMap (·.imports))

def moduleStatements (classes : List ClassDef) : List Statement :=
  headStatements classes ++ classes.map .classDef

/-! ### The lines -/

/-- The lines that are not empty. -/
def written (lines : List String) : List String := lines.filter (· ≠ "")

theorem written_append (first second : List String) :
    written (first ++ second) = written first ++ written second := List.filter_append ..

theorem written_flatMap {α : Type} (f : α → List String) (items : List α) :
    written (items.flatMap f) = items.flatMap fun item => written (f item) :=
  List.filter_flatMap ..

theorem groupLines_eq (imports : List Import) (group : Int) :
    groupLines imports group = (groupStatements imports group).flatMap Statement.lines := by
  have bare : ∀ modules : List (String × List String),
      (modules.map fun m => Statement.importModule m.1).flatMap Statement.lines =
        modules.map fun m => "import " ++ m.1 := by
    intro modules
    rw [List.flatMap_map]
    exact List.map_eq_flatMap.symm
  rw [groupStatements, List.flatMap_append, bare, List.flatMap_map]
  rfl

theorem written_intercalate (blocks : List (List String)) :
    written (List.intercalate [""] blocks) = blocks.flatMap written := by
  induction blocks with
  | nil => rfl
  | cons block rest ih =>
      cases rest with
      | nil => simp [List.intercalate]
      | cons next rest =>
          have step : List.intercalate [""] (block :: next :: rest) =
              block ++ "" :: List.intercalate [""] (next :: rest) := by
            simp [List.intercalate]
          rw [step, written_append, List.flatMap_cons, ← ih]
          rfl

theorem written_importLines (imports : List Import) :
    written (importLines imports) =
      written ((importStatements imports).flatMap Statement.lines) := by
  rw [importLines, written_intercalate, importStatements, List.flatMap_assoc, written_flatMap,
    List.flatMap_map]
  simp only [groupLines_eq]

theorem written_moduleLines (header : String) (classes : List ClassDef) :
    written (moduleLines header classes) =
      ("# " ++ header) :: written ((moduleStatements classes).flatMap Statement.lines) := by
  have blank : ∀ lines, written ("" :: lines) = written lines := fun lines => by simp [written]
  have comment : "# " ++ header ≠ "" := by simp
  have first : written ["# " ++ header, "", "from __future__ import annotations"] =
      ["# " ++ header, "from __future__ import annotations"] := by
    simp [written, comment]
  have future : (Statement.importNames "__future__" ["annotations"]).lines =
      ["from __future__ import annotations"] := by decide
  have optional : ∀ lines : List String,
      written (if lines.isEmpty then [] else "" :: lines) = written lines := by
    rintro (- | ⟨line, rest⟩)
    · rfl
    · exact blank _
  rw [moduleLines, moduleStatements, headStatements, List.flatMap_append, List.flatMap_cons,
    List.flatMap_map, future]
  simp only [written_append, optional, written_importLines, written_flatMap, blank, first,
    Statement.lines]
  simp [written]

/-! ### The bindings -/

section binding
variable {name module : String}

theorem lastBinding?_append (name : String) (first second : List Statement) :
    lastBinding? name (first ++ second) =
      (lastBinding? name second).or (lastBinding? name first) := by
  induction first with
  | nil => simp [lastBinding?]
  | cons statement rest ih => rw [List.cons_append, lastBinding?, ih, lastBinding?, Option.or_assoc]

theorem lastBinding?_eq_none_iff {statements : List Statement} :
    lastBinding? name statements = none ↔ ∀ s ∈ statements, s.binds? name = none := by
  induction statements with
  | nil => simp [lastBinding?]
  | cons statement rest ih => simp [lastBinding?, ih, and_comm]

theorem lastBinding?_ne {statements : List Statement} {origin : Origin}
    (h : ∀ s ∈ statements, s.binds? name ≠ some origin) :
    lastBinding? name statements ≠ some origin := by
  induction statements with
  | nil => exact nofun
  | cons statement rest ih =>
      obtain ⟨first, rest⟩ := List.forall_mem_cons.mp h
      rw [lastBinding?, Ne, Option.or_eq_some_iff]
      rintro (later | ⟨-, now⟩)
      · exact ih rest later
      · exact first now

theorem lastBinding?_importNames_eq_none_iff {modules : List (String × List String)} :
    lastBinding? name (modules.map fun m => .importNames m.1 m.2) = none ↔
      ∀ m ∈ modules, name ∉ m.2 := by
  rw [lastBinding?_eq_none_iff, List.forall_mem_map]
  refine forall₂_congr fun m _ => ?_
  by_cases asked : name ∈ m.2 <;> simp [Statement.binds?, asked]

/-- Of imports in ascending order, the one from the last module that has the name counts. -/
theorem lastBinding?_importNames_iff {modules : List (String × List String)}
    (ascending : modules.Pairwise (·.1 ≤ ·.1)) :
    lastBinding? name (modules.map fun m => .importNames m.1 m.2) = some (.imported module) ↔
      (∃ m ∈ modules, name ∈ m.2 ∧ m.1 = module) ∧
        ∀ m ∈ modules, name ∈ m.2 → m.1 ≤ module := by
  induction modules with
  | nil => simp [lastBinding?]
  | cons first rest ih =>
      obtain ⟨least, ascending⟩ := List.pairwise_cons.mp ascending
      rw [List.map_cons, lastBinding?, List.exists_mem_cons_iff, List.forall_mem_cons]
      cases bound : lastBinding? name (rest.map fun m => .importNames m.1 m.2) with
      | some origin =>
          obtain ⟨m, hm, asked⟩ : ∃ m ∈ rest, name ∈ m.2 := by
            by_contra nowhere
            rw [lastBinding?_importNames_eq_none_iff.mpr
              fun m hm asked => nowhere ⟨m, hm, asked⟩] at bound
            cases bound
          rw [Option.some_or, ← bound, ih ascending]
          constructor
          · rintro ⟨⟨last, hl, has, rfl⟩, upper⟩
            exact ⟨Or.inr ⟨last, hl, has, rfl⟩, fun _ => least last hl, upper⟩
          · rintro ⟨⟨-, rfl⟩ | there, -, upper⟩
            · -- The first module is the last one only if the later one is the same.
              exact ⟨⟨m, hm, asked, le_antisymm (upper m hm asked) (least m hm)⟩, upper⟩
            · exact ⟨there, upper⟩
      | none =>
          have others := lastBinding?_importNames_eq_none_iff.mp bound
          have nobody : ¬∃ m ∈ rest, name ∈ m.2 ∧ m.1 = module :=
            fun ⟨m, hm, asked, _⟩ => others m hm asked
          have upper : ∀ m ∈ rest, name ∈ m.2 → m.1 ≤ module :=
            fun m hm asked => absurd asked (others m hm)
          rw [Option.none_or, Statement.binds?, or_iff_left nobody, and_iff_left upper]
          by_cases asked : name ∈ first.2
          · simpa [asked] using le_of_eq
          · simp [asked]

variable {imports : List Import} {group : Int}

/-- Within a group, a name comes from the last of the modules from which it is imported. -/
theorem lastBinding?_groupStatements_iff :
    lastBinding? name (groupStatements imports group) = some (.imported module) ↔
      (∃ i ∈ imports, i.group = group ∧ name ∈ i.names ∧ i.module.plain = module) ∧
        ∀ i ∈ imports, i.group = group → name ∈ i.names → i.module.plain ≤ module := by
  have with_names : ∀ m : String × List String, name ∈ m.2 → (!m.2.isEmpty) = true := by
    rintro ⟨text, - | ⟨first, rest⟩⟩ asked
    · cases asked
    · rfl
  have ordered := (mergedModules_pairwise imports group).filter (!·.2.isEmpty)
  rw [groupStatements, lastBinding?_append, Option.or_eq_some_iff,
    lastBinding?_importNames_iff ordered]
  rw [← exists_mergedModules (p := (· = module)), ← forall_mergedModules (p := (· ≤ module))]
  constructor
  · rintro (⟨⟨m, hm, asked, last⟩, upper⟩ | ⟨-, wrong⟩)
    · exact ⟨⟨m, (List.mem_filter.mp hm).1, asked, last⟩,
        fun m hm asked => upper m (List.mem_filter.mpr ⟨hm, with_names m asked⟩) asked⟩
    · -- An import of a whole module binds no name to something in a module.
      refine absurd wrong (lastBinding?_ne ?_)
      simp [Statement.binds?]
  · rintro ⟨⟨m, hm, asked, last⟩, upper⟩
    exact Or.inl ⟨⟨m, List.mem_filter.mpr ⟨hm, with_names m asked⟩, asked, last⟩,
      fun m hm => upper m (List.mem_filter.mp hm).1⟩

/-- Where all imports of a group ask for names, a name is left free if none asks for it. -/
theorem lastBinding?_groupStatements_eq_none_iff
    (named : ∀ i ∈ imports, i.group = group → i.names ≠ []) :
    lastBinding? name (groupStatements imports group) = none ↔
      ∀ i ∈ imports, i.group = group → name ∉ i.names := by
  have no_bare : (mergedModules imports group).filter (·.2.isEmpty) = [] := by
    rw [List.filter_eq_nil_iff]
    intro m hm empty
    obtain ⟨module, there, rfl⟩ := mem_mergedModules.mp hm
    obtain ⟨i, hi, of_group, rfl⟩ := mem_modulesIn.mp there
    obtain ⟨first, asked⟩ := List.exists_mem_of_ne_nil _ (named i hi of_group)
    have there := mem_namesFrom.mpr ⟨i, hi, of_group, rfl, asked⟩
    exact List.ne_nil_of_mem there (List.isEmpty_iff.mp empty)
  rw [← forall_mergedModules (p := fun _ => False), groupStatements, no_bare, List.map_nil,
    List.nil_append, lastBinding?_eq_none_iff, List.forall_mem_map]
  constructor
  · intro free m hm asked
    have kept : m ∈ (mergedModules imports group).filter (!·.2.isEmpty) := by
      refine List.mem_filter.mpr ⟨hm, ?_⟩
      simpa using List.ne_nil_of_mem asked
    simpa [Statement.binds?, asked] using free m kept
  · intro free m hm
    exact if_neg fun asked => free m (List.mem_filter.mp hm).1 asked

/-! ### Classes -/

variable {classes : List ClassDef}

theorem lastBinding?_classDef_eq_none_iff :
    lastBinding? name (classes.map .classDef) = none ↔ ∀ c ∈ classes, c.name.plain ≠ name := by
  simp [lastBinding?_eq_none_iff, Statement.binds?]

theorem lastBinding?_classDef_ne :
    lastBinding? name (classes.map .classDef) ≠ some (.imported module) :=
  lastBinding?_ne (by simp [Statement.binds?])

end binding

end Preferences.Source

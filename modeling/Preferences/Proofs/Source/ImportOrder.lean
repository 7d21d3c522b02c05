import Mathlib.Data.List.Nodup
import Preferences.Proofs.Source.Imported
import Preferences.Proofs.Store.TextKeyed

/-! # The order of the import lines

The import lines are settled by what is asked for: by the modules of each group and by the names of
each of these modules.  The order of the imports, repetitions and the way in which the names of a
module are spread over imports do not show (`AskAlike.importLines_eq`).  This is so because the
lines of a group are arranged in the only way in which modules and names ascend, each of them once
(`arranged_mergedModules`, `Arranged.unique`).  `importLines_arranged` sums up what is written. -/

namespace Preferences.Source

/-- Some import of the group is of the module. -/
def Asks (imports : List Import) (group : Int) (module : String) : Prop :=
  ∃ i ∈ imports, i.group = group ∧ i.module = module

/-- Some import of the group asks for the name in the module. -/
def AsksFor (imports : List Import) (group : Int) (module name : String) : Prop :=
  ∃ i ∈ imports, i.group = group ∧ i.module = module ∧ name ∈ i.names

/-- The imports ask for the same modules in each group, and for the same names in each of them. -/
structure AskAlike (imports others : List Import) : Prop where
  asks : ∀ group module, Asks imports group module ↔ Asks others group module
  asksFor : ∀ group module name,
    AsksFor imports group module name ↔ AsksFor others group module name

def NameModules (imports : List Import) : Prop := ∀ i ∈ imports, i.module.isText = true

theorem NameModules.exists_text {imports : List Import} (texts : NameModules imports) {i : Import}
    (hi : i ∈ imports) : ∃ module : String, i.module = module := by
  have text := texts i hi
  cases named : i.module with
  | text module => exact ⟨module, rfl⟩
  | _ => rw [named] at text; cases text

/-- The modules of a group, those without names and those with their names, in the order in which
they are imported: each module once, each of its names once, and all of them ascending. -/
structure Arranged (imports : List Import) (group : Int) (bare : List String)
    (named : List (String × List String)) : Prop where
  each_once : (bare ++ named.map Prod.fst).Nodup
  mem_modules : ∀ module, module ∈ bare ++ named.map Prod.fst ↔ Asks imports group module
  bare_ascends : bare.Pairwise (· < ·)
  named_ascends : named.Pairwise (·.1 < ·.1)
  no_names : ∀ module ∈ bare, ∀ name, ¬AsksFor imports group module name
  names_ne_nil : ∀ m ∈ named, m.2 ≠ []
  names_ascend : ∀ m ∈ named, m.2.Pairwise (· < ·)
  mem_names : ∀ m ∈ named, ∀ name, name ∈ m.2 ↔ AsksFor imports group m.1 name

/-! ### Lists that ascend -/

theorem eq_of_ascending {α β : Type} [LinearOrder β] (key : α → β) {xs ys : List α}
    (hx : xs.Pairwise fun a b => key a < key b) (hy : ys.Pairwise fun a b => key a < key b)
    (same : ∀ a, a ∈ xs ↔ a ∈ ys) : xs = ys := by
  have nodup : ∀ {zs : List α}, (zs.Pairwise fun a b => key a < key b) → zs.Nodup :=
    fun ascends => ascends.imp fun less equal => (equal ▸ less).false
  have perm := (List.perm_ext_iff_of_nodup (nodup hx) (nodup hy)).mpr same
  exact perm.eq_of_pairwise (fun _ _ _ _ less greater => (lt_asymm less greater).elim) hx hy

theorem ascending_pairwise_lt {texts : List String} (nodup : texts.Nodup) :
    (ascending texts).Pairwise (· < ·) := by
  have ascends : (ascending texts).Pairwise (· ≤ ·) :=
    pairwise_mergeSort_key id (fun _ _ => decide_eq_true_iff) texts
  have once : (ascending texts).Nodup := (List.mergeSort_perm _ _).nodup_iff.mpr nodup
  exact (ascends.and once).imp fun h => lt_of_le_of_ne h.1 h.2

theorem namesFrom_pairwise_lt (imports : List Import) (group : Int) (module : Value) :
    (namesFrom imports group module).Pairwise (· < ·) := by
  rw [namesFrom_eq]
  exact ascending_pairwise_lt (nodup_once _)

/-! ### The modules of a group -/

section group
variable {imports others : List Import} {group : Int} {module : String}

theorem mem_map_fst_mergedModules (texts : NameModules imports) :
    module ∈ (mergedModules imports group).map Prod.fst ↔ Asks imports group module := by
  simp only [List.mem_map, mem_mergedModules, mem_modulesIn]
  constructor
  · rintro ⟨_, ⟨_, ⟨i, hi, of_group, rfl⟩, rfl⟩, rfl⟩
    obtain ⟨name, named⟩ := texts.exists_text hi
    exact ⟨i, hi, of_group, by rw [named]; rfl⟩
  · rintro ⟨i, hi, of_group, named⟩
    exact ⟨_, ⟨_, ⟨i, hi, of_group, named⟩, rfl⟩, rfl⟩

theorem nodup_map_fst_mergedModules (texts : NameModules imports) (group : Int) :
    ((mergedModules imports group).map Prod.fst).Nodup := by
  have plain : ∀ v ∈ modulesIn imports group, ∃ name : String, v = name := by
    intro v there
    obtain ⟨i, hi, -, rfl⟩ := mem_modulesIn.mp there
    exact texts.exists_text hi
  have perm : ((mergedModules imports group).map Prod.fst).Perm
      ((modulesIn imports group).map Value.plain) := by
    have sorted := List.mergeSort_perm ((modulesIn imports group).map fun module =>
      (module.plain, namesFrom imports group module)) fun a b => decide (a.1 ≤ b.1)
    simpa [mergedModules, Function.comp_def] using sorted.map Prod.fst
  rw [perm.nodup_iff]
  refine List.Nodup.map_on (fun v hv w hw same => ?_)
    (nodup_modulesIn imports group)
  obtain ⟨first, rfl⟩ := plain v hv
  obtain ⟨second, rfl⟩ := plain w hw
  exact congrArg Value.text same

theorem mergedModules_pairwise_lt (texts : NameModules imports) (group : Int) :
    (mergedModules imports group).Pairwise (·.1 < ·.1) := by
  have once := List.pairwise_map.mp (nodup_map_fst_mergedModules texts group)
  exact ((mergedModules_pairwise imports group).and once).imp fun h => lt_of_le_of_ne h.1 h.2

theorem names_of_mem_mergedModules (texts : NameModules imports) {m : String × List String}
    (hm : m ∈ mergedModules imports group) :
    m.2.Pairwise (· < ·) ∧ ∀ name, name ∈ m.2 ↔ AsksFor imports group m.1 name := by
  obtain ⟨v, there, rfl⟩ := mem_mergedModules.mp hm
  obtain ⟨i, hi, -, rfl⟩ := mem_modulesIn.mp there
  obtain ⟨module, named⟩ := texts.exists_text hi
  rw [named]
  exact ⟨namesFrom_pairwise_lt .., fun name => mem_namesFrom⟩

/-- The modules of a group are arranged, those without names before those with names. -/
theorem arranged_mergedModules (texts : NameModules imports) (group : Int) :
    Arranged imports group
      (((mergedModules imports group).filter (·.2.isEmpty)).map Prod.fst)
      ((mergedModules imports group).filter (!·.2.isEmpty)) := by
  have ascends := mergedModules_pairwise_lt texts group
  have perm : (((mergedModules imports group).filter (·.2.isEmpty)).map Prod.fst ++
      ((mergedModules imports group).filter (!·.2.isEmpty)).map Prod.fst).Perm
        ((mergedModules imports group).map Prod.fst) := by
    rw [← List.map_append]
    exact (List.filter_append_perm _ _).map Prod.fst
  refine ⟨?_, fun module => ?_, ?_, ascends.filter _, ?_, ?_, ?_, ?_⟩
  · exact perm.nodup_iff.mpr (nodup_map_fst_mergedModules texts group)
  · rw [perm.mem_iff]
    exact mem_map_fst_mergedModules texts
  · exact List.pairwise_map.mpr (ascends.filter _)
  · intro module there name asked
    obtain ⟨m, kept, rfl⟩ := List.mem_map.mp there
    obtain ⟨hm, empty⟩ := List.mem_filter.mp kept
    have listed := ((names_of_mem_mergedModules texts hm).2 name).mpr asked
    rw [List.isEmpty_iff.mp empty] at listed
    exact List.not_mem_nil listed
  · intro m hm empty
    have kept := (List.mem_filter.mp hm).2
    rw [empty] at kept
    cases kept
  · exact fun m hm => (names_of_mem_mergedModules texts (List.mem_filter.mp hm).1).1
  · exact fun m hm => (names_of_mem_mergedModules texts (List.mem_filter.mp hm).1).2

namespace Arranged
variable {bare bare' : List String} {named named' : List (String × List String)}

theorem mem_bare_iff (h : Arranged imports group bare named) :
    module ∈ bare ↔ Asks imports group module ∧ ∀ name, ¬AsksFor imports group module name := by
  rw [← h.mem_modules, List.mem_append]
  constructor
  · exact fun hm => ⟨Or.inl hm, h.no_names module hm⟩
  · rintro ⟨there | there, none⟩
    · exact there
    · obtain ⟨m, hm, rfl⟩ := List.mem_map.mp there
      obtain ⟨name, listed⟩ := List.exists_mem_of_ne_nil _ (h.names_ne_nil m hm)
      exact absurd ((h.mem_names m hm name).mp listed) (none name)

theorem mem_named_iff (h : Arranged imports group bare named) {m : String × List String} :
    m ∈ named ↔ m.2 ≠ [] ∧ m.2.Pairwise (· < ·) ∧
      ∀ name, name ∈ m.2 ↔ AsksFor imports group m.1 name := by
  constructor
  · exact fun hm => ⟨h.names_ne_nil m hm, h.names_ascend m hm, h.mem_names m hm⟩
  · rintro ⟨some, ascend, asked⟩
    obtain ⟨name, listed⟩ := List.exists_mem_of_ne_nil _ some
    have asks := (asked name).mp listed
    have there : Asks imports group m.1 :=
      asks.imp fun i ⟨hi, of_group, of_module, _⟩ => ⟨hi, of_group, of_module⟩
    rcases List.mem_append.mp ((h.mem_modules m.1).mpr there) with hm | hm
    · exact absurd asks (h.no_names _ hm name)
    · obtain ⟨other, ho, same⟩ := List.mem_map.mp hm
      have equal : other.2 = m.2 := by
        refine eq_of_ascending id (h.names_ascend other ho) ascend fun name => ?_
        rw [h.mem_names other ho, asked, same]
      rwa [Prod.ext same equal] at ho

/-- There is one arrangement only, and it depends on what is asked for. -/
theorem unique (h : Arranged imports group bare named) (h' : Arranged others group bare' named')
    (alike : AskAlike imports others) : bare = bare' ∧ named = named' := by
  constructor
  · refine eq_of_ascending id h.bare_ascends h'.bare_ascends fun module => ?_
    rw [h.mem_bare_iff, h'.mem_bare_iff, alike.asks]
    simp only [alike.asksFor]
  · refine eq_of_ascending Prod.fst h.named_ascends h'.named_ascends fun m => ?_
    rw [h.mem_named_iff, h'.mem_named_iff]
    simp only [alike.asksFor]

end Arranged

theorem groupLines_eq_of_arranged (imports : List Import) (group : Int) :
    groupLines imports group =
      (((mergedModules imports group).filter (·.2.isEmpty)).map Prod.fst).map ("import " ++ ·) ++
        ((mergedModules imports group).filter (!·.2.isEmpty)).flatMap fun m =>
          fromImport m.1 m.2 := by
  rw [groupLines_eq_append, List.map_map]
  rfl

end group

/-! ### What the lines depend on -/

namespace AskAlike
variable {imports others : List Import}

theorem groups_eq (texts : NameModules imports) (texts' : NameModules others)
    (alike : AskAlike imports others) : groups imports = groups others := by
  have asked : ∀ {imports : List Import}, NameModules imports → ∀ group,
      group ∈ groups imports ↔ ∃ module, Asks imports group module := by
    intro imports texts group
    rw [mem_groups]
    constructor
    · rintro ⟨i, hi, of_group⟩
      obtain ⟨module, named⟩ := texts.exists_text hi
      exact ⟨module, i, hi, of_group, named⟩
    · rintro ⟨module, i, hi, of_group, -⟩
      exact ⟨i, hi, of_group⟩
  refine eq_of_ascending id (groups_pairwise_lt _) (groups_pairwise_lt _) fun group => ?_
  simp only [asked texts, asked texts', alike.asks]

/-- Imports that ask for the same have the same lines. -/
theorem importLines_eq (texts : NameModules imports) (texts' : NameModules others)
    (alike : AskAlike imports others) : importLines imports = importLines others := by
  have lines : ∀ group, groupLines imports group = groupLines others group := by
    intro group
    obtain ⟨bare, named⟩ := (arranged_mergedModules texts group).unique
      (arranged_mergedModules texts' group) alike
    rw [groupLines_eq_of_arranged, groupLines_eq_of_arranged, bare, named]
  rw [importLines, importLines, alike.groups_eq texts texts', funext lines]

/-- Neither the order of imports nor repetitions matter. -/
theorem of_mem_iff (same : ∀ i, i ∈ imports ↔ i ∈ others) : AskAlike imports others := by
  constructor
  · intro group module
    simp only [Asks, same]
  · intro group module name
    simp only [AsksFor, same]

end AskAlike

/-- The import in parts, each of which asks for some of its names. -/
def inParts (i : Import) (parts : List (List String)) : List Import :=
  parts.map fun names => { i with names }

theorem nameModules_inParts {before after : List Import} {i : Import}
    (texts : NameModules (before ++ i :: after)) (parts : List (List String)) :
    NameModules (before ++ inParts i parts ++ after) := by
  intro other ho
  rcases List.mem_append.mp ho with ho | ho
  · rcases List.mem_append.mp ho with ho | ho
    · exact texts other (List.mem_append_left _ ho)
    · obtain ⟨part, -, rfl⟩ := List.mem_map.mp ho
      exact texts i (List.mem_append_right _ List.mem_cons_self)
  · exact texts other (List.mem_append_right _ (List.mem_cons_of_mem _ ho))

theorem askAlike_inParts (before after : List Import) {i : Import} {parts : List (List String)}
    (some : parts ≠ []) (whole : ∀ name, name ∈ i.names ↔ ∃ part ∈ parts, name ∈ part) :
    AskAlike (before ++ inParts i parts ++ after) (before ++ i :: after) := by
  have there : ∀ p : Import → Prop, (∃ other ∈ before ++ inParts i parts ++ after, p other) ↔
      (∃ other ∈ before, p other) ∨ (∃ part ∈ parts, p { i with names := part }) ∨
        ∃ other ∈ after, p other := by
    intro p
    simp only [inParts, List.mem_append, List.mem_map, or_and_right, exists_or, or_assoc]
    simp
  have whole_there : ∀ p : Import → Prop, (∃ other ∈ before ++ i :: after, p other) ↔
      (∃ other ∈ before, p other) ∨ p i ∨ ∃ other ∈ after, p other := by
    intro p
    simp [or_and_right, exists_or]
  obtain ⟨first, hf⟩ := List.exists_mem_of_ne_nil _ some
  constructor
  · intro group module
    rw [Asks, Asks, there, whole_there]
    refine or_congr_right (or_congr_left ⟨?_, fun asked => ⟨first, hf, asked⟩⟩)
    exact fun ⟨_, _, asked⟩ => asked
  · intro group module name
    rw [AsksFor, AsksFor, there, whole_there]
    refine or_congr_right (or_congr_left ?_)
    simp only [whole]
    constructor
    · rintro ⟨part, hp, of_group, of_module, asked⟩
      exact ⟨of_group, of_module, part, hp, asked⟩
    · rintro ⟨of_group, of_module, part, hp, asked⟩
      exact ⟨part, hp, of_group, of_module, asked⟩

/-! ### The lines -/

theorem ImportsNames.ne_nil {module : String} {names lines : List String}
    (h : ImportsNames module names lines) : lines ≠ [] := by
  cases h <;> simp

theorem ImportsNames.empty_not_mem {module : String} {names lines : List String}
    (h : ImportsNames module names lines) : "" ∉ lines := by
  cases h <;> simp

/-- Names are imported in one line exactly if it does not grow too long. -/
theorem fromImport_eq_singleton_iff (module : String) (names : List String) :
    fromImport module names = ["from " ++ module ++ " import " ++ ", ".intercalate names] ↔
      ("from " ++ module ++ " import " ++ ", ".intercalate names).length ≤ maxLineLength := by
  unfold fromImport
  dsimp only
  split_ifs with fits
  · exact iff_of_true rfl fits
  · exact iff_of_false (by simp) fits

theorem empty_not_mem_groupLines (imports : List Import) (group : Int) :
    "" ∉ groupLines imports group := by
  rw [groupLines_eq_of_arranged, List.mem_append, List.mem_map, List.mem_flatMap]
  rintro (⟨module, -, line⟩ | ⟨m, -, line⟩)
  · simp at line
  · exact (importsNames_fromImport m.1 m.2).empty_not_mem line

theorem groupLines_ne_nil {imports : List Import} {group : Int} (there : group ∈ groups imports) :
    groupLines imports group ≠ [] := by
  obtain ⟨i, hi, of_group⟩ := mem_groups.mp there
  obtain ⟨m, hm⟩ : ∃ m, m ∈ mergedModules imports group :=
    ⟨_, mem_mergedModules.mpr ⟨_, mem_modulesIn.mpr ⟨i, hi, of_group, rfl⟩, rfl⟩⟩
  rw [groupLines_eq_of_arranged]
  intro none
  obtain ⟨bare, named⟩ := List.append_eq_nil_iff.mp none
  by_cases empty : m.2.isEmpty = true
  · have kept : m ∈ (mergedModules imports group).filter (·.2.isEmpty) :=
      List.mem_filter.mpr ⟨hm, empty⟩
    exact List.ne_nil_of_mem (List.mem_map_of_mem (List.mem_map_of_mem kept)) bare
  · have kept : m ∈ (mergedModules imports group).filter (!·.2.isEmpty) :=
      List.mem_filter.mpr ⟨hm, by simpa using empty⟩
    exact (importsNames_fromImport ..).ne_nil (List.flatMap_eq_nil_iff.mp named _ kept)

/-- What is written for imports.  It depends on what they ask for only, so their order, repetitions
and the parts into which an import is taken do not matter.  Each group has its lines, in ascending
order of the groups and with one empty line between two of them.  In a group each module is imported
once: those that no names are asked from come first, then the others with the names that are asked
for, and modules and names ascend.  Names stand in one line if it does not grow too long, and
otherwise in a line each. -/
theorem importLines_arranged {imports : List Import} (texts : NameModules imports) :
    (∀ others, NameModules others → AskAlike imports others →
      importLines others = importLines imports) ∧
    (∀ others, (∀ i, i ∈ imports ↔ i ∈ others) → importLines others = importLines imports) ∧
    (∀ before i after parts, imports = before ++ i :: after → parts ≠ [] →
      (∀ name, name ∈ i.names ↔ ∃ part ∈ parts, name ∈ part) →
      importLines (before ++ inParts i parts ++ after) = importLines imports) ∧
    importLines imports = List.intercalate [""] ((groups imports).map (groupLines imports)) ∧
    (groups imports).Pairwise (· < ·) ∧
    (∀ group, group ∈ groups imports ↔ ∃ i ∈ imports, i.group = group) ∧
    ∀ group ∈ groups imports, groupLines imports group ≠ [] ∧ "" ∉ groupLines imports group ∧
      ∃ bare named, Arranged imports group bare named ∧
        groupLines imports group = bare.map ("import " ++ ·) ++
          named.flatMap (fun m => fromImport m.1 m.2) ∧
        ∀ m ∈ named, ImportsNames m.1 m.2 (fromImport m.1 m.2) ∧
          (fromImport m.1 m.2 = ["from " ++ m.1 ++ " import " ++ ", ".intercalate m.2] ↔
            ("from " ++ m.1 ++ " import " ++ ", ".intercalate m.2).length ≤ 99) := by
  refine ⟨fun others texts' alike => (alike.importLines_eq texts texts').symm, ?_, ?_, rfl,
    groups_pairwise_lt imports, fun group => mem_groups, fun group there => ?_⟩
  · intro others same
    have texts' : NameModules others := fun i hi => texts i ((same i).mpr hi)
    exact ((AskAlike.of_mem_iff same).importLines_eq texts texts').symm
  · rintro before i after parts rfl some whole
    exact (askAlike_inParts before after some whole).importLines_eq
      (nameModules_inParts texts parts) texts
  · refine ⟨groupLines_ne_nil there, empty_not_mem_groupLines imports group, _, _,
      arranged_mergedModules texts group, groupLines_eq_of_arranged imports group, fun m _ => ?_⟩
    exact ⟨importsNames_fromImport m.1 m.2, fromImport_eq_singleton_iff m.1 m.2⟩

/-- Imports of two groups; two of them ask for names of one module. -/
def spreadImports : List Import :=
  [{ module := "typing", names := ["cast"] }, { module := "app", names := ["Base"], group := 1 },
    { module := "threading" }, { module := "typing", names := ["cast", "Any"] }]

/-- The imports can be turned around and repeated, and the last one taken apart. -/
theorem importLines_arranged_spreadImports :
    importLines (spreadImports.reverse ++ spreadImports) = importLines spreadImports ∧
    importLines (spreadImports.take 3 ++
        [{ module := "typing", names := ["Any"] }, { module := "typing", names := ["cast"] }]) =
      importLines spreadImports ∧
    (groups spreadImports).Pairwise (· < ·) ∧
    ∃ bare named, Arranged spreadImports 0 bare named ∧
      groupLines spreadImports 0 = bare.map ("import " ++ ·) ++
        named.flatMap fun m => fromImport m.1 m.2 := by
  have texts : NameModules spreadImports := by
    unfold NameModules
    decide
  obtain ⟨-, mixed, taken, -, ascend, -, each⟩ := importLines_arranged texts
  obtain ⟨-, -, bare, named, arranged, lines, -⟩ :=
    each 0 (mem_groups.mpr ⟨{ module := "threading" }, by decide, rfl⟩)
  refine ⟨mixed _ fun i => by simp, ?_, ascend, bare, named, arranged, lines⟩
  have parts : ∀ name, name ∈ ["cast", "Any"] ↔ ∃ part ∈ [["Any"], ["cast"]], name ∈ part := by
    simp [or_comm]
  have apart := taken (spreadImports.take 3) { module := "typing", names := ["cast", "Any"] } []
    [["Any"], ["cast"]] rfl (by simp) parts
  rwa [List.append_nil] at apart

end Preferences.Source

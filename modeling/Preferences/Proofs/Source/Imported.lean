import Preferences.Proofs.Source.Statements

/-! # What the import lines import

Imports of one module in one group are merged into one statement.  Every name that one of them asks
for is listed there, in the lines of the group.  A module that some of them ask no names from has a
line of its own only if none of them asks for names (`importLines_keep`): next to an import of
names, an import of the module itself is lost (`importLines_lose`). -/

namespace Preferences.Source

/-- The lines import exactly these names from the module: one line that lists them or, where it
would be too long, a line for each of them between brackets. -/
inductive ImportsNames (module : String) (names : List String) : List String → Prop
  | listed (fits : ("from " ++ module ++ " import " ++ ", ".intercalate names).length ≤
        maxLineLength) :
      ImportsNames module names ["from " ++ module ++ " import " ++ ", ".intercalate names]
  | bracketed : ImportsNames module names
      (("from " ++ module ++ " import (") :: names.map (fun name => "    " ++ name ++ ",") ++ [")"])

theorem importsNames_fromImport (module : String) (names : List String) :
    ImportsNames module names (fromImport module names) := by
  unfold fromImport
  dsimp only
  split_ifs with fits
  · exact .listed fits
  · exact .bracketed

/-! ### Lines and their groups -/

section lines
variable {imports : List Import} {group : Int} {line module : String}

theorem mem_written {lines : List String} : line ∈ written lines ↔ line ∈ lines ∧ line ≠ "" := by
  simp [written]

theorem mem_importLines (some : line ≠ "") :
    line ∈ importLines imports ↔ ∃ group ∈ groups imports, line ∈ groupLines imports group := by
  have member : ∀ lines, line ∈ written lines ↔ line ∈ lines := fun lines => by
    rw [mem_written, and_iff_left some]
  rw [← member, importLines, written_intercalate, List.flatMap_map, List.mem_flatMap]
  simp only [member]

/-- The lines of a group: those that import modules, and then those that import names. -/
theorem groupLines_eq_append (imports : List Import) (group : Int) :
    groupLines imports group =
      ((mergedModules imports group).filter (·.2.isEmpty)).map (fun m => "import " ++ m.1) ++
        ((mergedModules imports group).filter (!·.2.isEmpty)).flatMap fun m =>
          fromImport m.1 m.2 := rfl

theorem ImportsNames.not_mem {other : String} {names lines : List String}
    (h : ImportsNames other names lines) : "import " ++ module ∉ lines := by
  have head : ∀ {line : String}, "import " ++ module = line → line.toList.head? = some 'i' := by
    rintro _ rfl
    rw [String.toList_append]
    rfl
  intro member
  cases h with
  | listed =>
      have first := head (List.mem_singleton.mp member)
      simp at first
  | bracketed =>
      rw [List.cons_append, List.mem_cons, List.mem_append, List.mem_map,
        List.mem_singleton] at member
      rcases member with first | ⟨name, -, indented⟩ | last
      · have first := head first
        simp at first
      · have first := head indented.symm
        simp at first
      · have first := head last
        simp at first

/-- A module is imported by itself if its merged import has no names. -/
theorem import_mem_groupLines :
    "import " ++ module ∈ groupLines imports group ↔
      (module, []) ∈ mergedModules imports group := by
  rw [groupLines_eq_append, List.mem_append, List.mem_map, List.mem_flatMap]
  constructor
  · rintro (⟨⟨other, names⟩, hm, line⟩ | ⟨m, -, line⟩)
    · obtain ⟨hm, bare⟩ := List.mem_filter.mp hm
      obtain rfl := List.isEmpty_iff.mp bare
      obtain rfl := (String.append_right_inj "import ").mp line
      exact hm
    · exact absurd line (importsNames_fromImport m.1 m.2).not_mem
  · intro hm
    exact Or.inl ⟨_, List.mem_filter.mpr ⟨hm, rfl⟩, rfl⟩

theorem bare_mem_mergedModules :
    (module, []) ∈ mergedModules imports group ↔ ∃ i ∈ imports, i.group = group ∧
      i.module.plain = module ∧
      ∀ other ∈ imports, other.group = group → other.module = i.module → other.names = [] := by
  rw [mem_mergedModules]
  constructor
  · rintro ⟨value, there, same⟩
    obtain ⟨rfl, none⟩ := Prod.mk.inj same
    obtain ⟨i, hi, of_group, rfl⟩ := mem_modulesIn.mp there
    refine ⟨i, hi, of_group, rfl, fun other ho same_group same_module => ?_⟩
    refine List.eq_nil_iff_forall_not_mem.mpr fun name asked => ?_
    have listed := mem_namesFrom.mpr ⟨other, ho, same_group, same_module, asked⟩
    rw [none] at listed
    exact List.not_mem_nil listed
  · rintro ⟨i, hi, of_group, rfl, none⟩
    refine ⟨i.module, mem_modulesIn.mpr ⟨i, hi, of_group, rfl⟩, ?_⟩
    have empty : namesFrom imports group i.module = [] := by
      refine List.eq_nil_iff_forall_not_mem.mpr fun name listed => ?_
      obtain ⟨other, ho, same_group, same_module, asked⟩ := mem_namesFrom.mp listed
      rw [none other ho same_group same_module] at asked
      cases asked
    rw [empty]

theorem exists_fromImport {i : Import} (hi : i ∈ imports) (asks : i.names ≠ []) :
    ∃ before after, groupLines imports i.group =
      before ++ fromImport i.module.plain (namesFrom imports i.group i.module) ++ after := by
  obtain ⟨first, asked⟩ := List.exists_mem_of_ne_nil _ asks
  have listed := mem_namesFrom.mpr ⟨i, hi, rfl, rfl, asked⟩
  have kept : (i.module.plain, namesFrom imports i.group i.module) ∈
      (mergedModules imports i.group).filter (!·.2.isEmpty) := by
    refine List.mem_filter.mpr ⟨mem_mergedModules.mpr
      ⟨_, mem_modulesIn.mpr ⟨i, hi, rfl, rfl⟩, rfl⟩, ?_⟩
    simpa using List.ne_nil_of_mem listed
  obtain ⟨earlier, later, split⟩ := List.append_of_mem kept
  rw [groupLines_eq_append, split, List.flatMap_append, List.flatMap_cons, ← List.append_assoc,
    ← List.append_assoc]
  exact ⟨_, _, rfl⟩

end lines

theorem groups_pairwise_lt (imports : List Import) : (groups imports).Pairwise (· < ·) :=
  ((groups_pairwise imports).and (nodup_groups imports)).imp fun h => lt_of_le_of_ne h.1 h.2

/-- What the lines import.  A module has a line of its own exactly if there is an import of it such
that no import of the module in the same group asks for names.  The lines are those of the groups of
the imports, in ascending order, with an empty line between two of them; and where an import asks
for names, there is one statement among the lines of its group that lists the names that the imports
of this module in this group ask for, its own among them. -/
theorem importLines_keep (imports : List Import) :
    (∀ module : String, "import " ++ module ∈ importLines imports ↔
      ∃ i ∈ imports, i.module.plain = module ∧
        ∀ other ∈ imports, other.group = i.group → other.module = i.module → other.names = []) ∧
    (groups imports).Pairwise (· < ·) ∧
    (∀ group, group ∈ groups imports ↔ ∃ i ∈ imports, i.group = group) ∧
    importLines imports = List.intercalate [""] ((groups imports).map (groupLines imports)) ∧
    ∀ i ∈ imports, i.names ≠ [] → ∃ before statement after names,
      groupLines imports i.group = before ++ statement ++ after ∧
      ImportsNames i.module.plain names statement ∧
      (∀ name ∈ i.names, name ∈ names) ∧
      ∀ name ∈ names, ∃ other ∈ imports,
        other.group = i.group ∧ other.module = i.module ∧ name ∈ other.names := by
  refine ⟨fun module => ?_, groups_pairwise_lt imports, fun _ => mem_groups, rfl, ?_⟩
  · have some : "import " ++ module ≠ "" := by simp
    rw [mem_importLines some]
    simp only [import_mem_groupLines, bare_mem_mergedModules]
    constructor
    · rintro ⟨group, -, i, hi, rfl, named, none⟩
      exact ⟨i, hi, named, none⟩
    · rintro ⟨i, hi, named, none⟩
      exact ⟨i.group, mem_groups.mpr ⟨i, hi, rfl⟩, i, hi, rfl, named, none⟩
  · intro i hi asks
    obtain ⟨before, after, lines⟩ := exists_fromImport hi asks
    refine ⟨before, _, after, _, lines, importsNames_fromImport _ _, fun name asked => ?_,
      fun name listed => mem_namesFrom.mp listed⟩
    exact mem_namesFrom.mpr ⟨i, hi, rfl, rfl, asked⟩

/-- A module that is imported by itself, and names from it in two imports. -/
def mixedImports : List Import :=
  [{ module := "typing" }, { module := "typing", names := ["Any"] },
    { module := "threading" }, { module := "typing", names := ["cast", "Any"] }]

theorem importLines_keep_mixedImports :
    "import threading" ∈ importLines mixedImports ∧
      ∃ before statement after names, groupLines mixedImports 0 = before ++ statement ++ after ∧
        ImportsNames "typing" names statement ∧ "cast" ∈ names := by
  obtain ⟨bare, -, -, -, named⟩ := importLines_keep mixedImports
  obtain ⟨before, statement, after, names, lines, statement_ok, listed, -⟩ :=
    named { module := "typing", names := ["cast", "Any"] } (by decide) (by decide)
  refine ⟨(bare "threading").mpr ⟨{ module := "threading" }, by decide, rfl, by decide⟩, ?_⟩
  exact ⟨before, statement, after, names, lines, statement_ok, listed "cast" (by decide)⟩

/-- An import that has no line: another one asks for a name of the same module. -/
theorem importLines_lose :
    ({ module := "typing" } : Import) ∈ mixedImports ∧
      "import typing" ∉ importLines mixedImports := by
  refine ⟨by decide, fun there : "import " ++ "typing" ∈ importLines mixedImports => ?_⟩
  obtain ⟨group, -, line⟩ := (mem_importLines (by decide)).mp there
  obtain ⟨i, hi, rfl, named, none⟩ := bare_mem_mergedModules.mp (import_mem_groupLines.mp line)
  have any : ({ module := "typing", names := ["Any"] } : Import) ∈ mixedImports := by decide
  simp only [mixedImports, List.mem_cons, List.not_mem_nil, or_false] at hi
  rcases hi with rfl | rfl | rfl | rfl
  · cases none _ any rfl rfl
  · cases none _ any rfl rfl
  · exact absurd named (by decide)
  · cases none _ any rfl rfl

end Preferences.Source

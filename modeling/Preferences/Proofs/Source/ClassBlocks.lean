import Mathlib.Algebra.Ring.Nat
import Mathlib.Data.List.Basic
import Preferences.Source.Layout

/-! # The members of a class in its lines

An empty line whose next line is indented by exactly four spaces parts two members of a class,
whatever is nested in them, and `cutBlocks` cuts there.  So the body of a class is cut into the
lines of its members, as long as no field of it has a name which begins with a space
(`ClassDef.cutBlocks_body`).  `ClassDef.IsFlush` asks the same of the classes nested in it. -/

namespace Preferences

namespace Source

/-! ### Indentation -/

/-- The number of spaces that a line begins with. -/
def indentation (line : String) : Nat := (line.toList.takeWhile (· = ' ')).length

/-- The line, four characters further out. -/
def outdentLine (line : String) : String := String.ofList (line.toList.drop 4)

theorem indentation_empty : indentation "" = 0 := rfl

theorem indentation_append (line : String) :
    indentation ("    " ++ line) = indentation line + 4 := by
  simp [indentation, String.toList_append, List.takeWhile]

theorem indentation_eq_zero_iff {line : String} :
    indentation line = 0 ↔ line.toList.head? ≠ some ' ' := by
  unfold indentation
  cases line.toList with
  | nil => simp
  | cons c rest => by_cases space : c = ' ' <;> simp [space]

theorem indentLine_eq_empty_iff {line : String} : indentLine line = "" ↔ line = "" := by
  unfold indentLine
  by_cases empty : line = "" <;> simp [empty]

theorem indentation_indentLine {line : String} (some : line ≠ "") :
    indentation (indentLine line) = indentation line + 4 := by
  rw [indentLine, if_neg (by simpa using some), indentation_append]

theorem outdentLine_indentLine (line : String) : outdentLine (indentLine line) = line := by
  unfold outdentLine indentLine
  by_cases empty : line = ""
  · simp [empty]
  · simp [empty, String.toList_append]

theorem map_outdentLine_map_indentLine (block : List String) :
    (block.map indentLine).map outdentLine = block := by
  simp [Function.comp_def, outdentLine_indentLine]

theorem count_map_indentLine (block : List String) :
    (block.map indentLine).count "" = block.count "" := by
  have same : ((· == "") ∘ indentLine) = (· == "") := by
    funext line
    rw [Bool.eq_iff_iff, Function.comp_apply, beq_iff_eq, beq_iff_eq, indentLine_eq_empty_iff]
  rw [List.count, List.countP_map, same]

/-! ### Cutting lines into blocks -/

/-- The lines, cut at every empty line whose next line is indented by exactly four spaces. -/
def cutBlocks : List String → List (List String)
  | [] => [[]]
  | line :: rest =>
    if line = "" ∧ rest.head?.any (indentation · = 4) then [] :: cutBlocks rest
    else (cutBlocks rest).modifyHead (line :: ·)

/-- Lines that are one block: none after an empty line is indented by exactly four spaces. -/
def Uncut (block : List String) : Prop :=
  block.Pairwise fun line later => line = "" → indentation later ≠ 4

theorem cutBlocks_ne_nil (lines : List String) : cutBlocks lines ≠ [] := by
  induction lines with
  | nil => exact List.cons_ne_nil _ _
  | cons line rest ih =>
      unfold cutBlocks
      split_ifs
      · exact List.cons_ne_nil _ _
      · simpa using ih

theorem length_le_of_mem_cutBlocks {lines block : List String} (h : block ∈ cutBlocks lines) :
    block.length ≤ lines.length := by
  induction lines generalizing block with
  | nil =>
      obtain rfl := List.mem_singleton.mp h
      exact Nat.le_refl _
  | cons line rest ih =>
      unfold cutBlocks at h
      split_ifs at h
      · rcases List.mem_cons.mp h with rfl | h
        · exact Nat.zero_le _
        · exact Nat.le_succ_of_le (ih h)
      · obtain ⟨first, blocks, cut⟩ := List.exists_cons_of_ne_nil (cutBlocks_ne_nil rest)
        rw [cut, List.modifyHead_cons] at h
        rcases List.mem_cons.mp h with rfl | h
        · exact Nat.succ_le_succ (ih (cut ▸ List.mem_cons_self))
        · exact Nat.le_succ_of_le (ih (cut ▸ List.mem_cons_of_mem _ h))

theorem cutBlocks_uncut {block : List String} (uncut : Uncut block) :
    cutBlocks block = [block] := by
  induction block with
  | nil => rfl
  | cons line rest ih =>
      obtain ⟨after, uncut⟩ := List.pairwise_cons.mp uncut
      rw [cutBlocks, ih uncut, if_neg, List.modifyHead_cons]
      rintro ⟨rfl, four⟩
      cases rest with
      | nil => cases four
      | cons next rest => exact after next List.mem_cons_self rfl (by simpa using four)

theorem cutBlocks_append {block rest : List String} {next : String} (uncut : Uncut block)
    (four : indentation next = 4) :
    cutBlocks (block ++ "" :: next :: rest) = block :: cutBlocks (next :: rest) := by
  induction block with
  | nil => rw [List.nil_append, cutBlocks, if_pos ⟨rfl, by simpa using four⟩]
  | cons line lines ih =>
      obtain ⟨after, uncut⟩ := List.pairwise_cons.mp uncut
      rw [List.cons_append, cutBlocks, ih uncut, if_neg, List.modifyHead_cons]
      rintro ⟨rfl, cut⟩
      cases lines with
      | nil => simp [indentation_empty] at cut
      | cons second lines => exact after second List.mem_cons_self rfl (by simpa using cut)

/-- Blocks that begin at four spaces are found again. -/
theorem cutBlocks_intercalate {blocks : List (List String)} (some : blocks ≠ [])
    (uncut : ∀ block ∈ blocks, Uncut block)
    (four : ∀ block ∈ blocks, ∃ first rest, block = first :: rest ∧ indentation first = 4) :
    cutBlocks (List.intercalate [""] blocks) = blocks := by
  induction blocks with
  | nil => exact absurd rfl some
  | cons block blocks ih =>
      obtain ⟨uncut_block, uncut_rest⟩ := List.forall_mem_cons.mp uncut
      obtain ⟨-, four_rest⟩ := List.forall_mem_cons.mp four
      cases blocks with
      | nil => simpa [List.intercalate] using cutBlocks_uncut uncut_block
      | cons second blocks =>
          obtain ⟨first, rest, begins, at_four⟩ := four_rest second List.mem_cons_self
          have found := ih (List.cons_ne_nil _ _) uncut_rest four_rest
          obtain ⟨later, joined⟩ : ∃ later,
              List.intercalate [""] (second :: blocks) = first :: later := by
            rw [begins]
            cases blocks with
            | nil => exact ⟨rest, by simp [List.intercalate]⟩
            | cons third blocks => exact ⟨_, by simp [List.intercalate]; rfl⟩
          rw [List.intercalate_cons_cons, List.append_assoc, List.singleton_append, joined,
            cutBlocks_append uncut_block at_four, ← joined, found]

theorem count_intercalate (blocks : List (List String)) :
    (List.intercalate [""] blocks).count "" =
      (blocks.map (List.count "")).sum + (blocks.length - 1) := by
  induction blocks with
  | nil => rfl
  | cons block blocks ih =>
      cases blocks with
      | nil => simp [List.intercalate]
      | cons second blocks =>
          rw [List.intercalate_cons_cons, List.count_append, List.count_append, ih]
          simp
          omega

end Source

open Source

/-! ### The members of a class -/

/-- What stands in the body of a class. -/
inductive Member
  | docstring (text : String)
  | fields (fs : List FieldDef)
  | method (m : MethodDef)
  | nested (c : ClassDef)
  /-- The only member of a class that has none. -/
  | pass

/-- The lines of a member. -/
def Member.lines : Member → List String
  | docstring text => [docLine text]
  | fields fs => fs.map FieldDef.line
  | method m => m.lines
  | nested c => c.lines
  | pass => ["pass"]

def Member.IsClass : Member → Prop
  | nested _ => True
  | _ => False

namespace ClassDef

/-- What a class declares: its documentation, its fields together, each of its methods and each of
its nested classes. -/
def declared (c : ClassDef) : List Member :=
  (if c.docstring == "" then [] else [.docstring c.docstring])
    ++ (if c.fields.isEmpty then [] else [.fields c.fields])
    ++ c.methods.map .method ++ c.types.map .nested

def members (c : ClassDef) : List Member := if c.declared.isEmpty then [.pass] else c.declared

def body (c : ClassDef) : List String :=
  List.intercalate [""] (c.members.map fun m => m.lines.map indentLine)

/-- The first class stands in the second one, at any depth, or is that class. -/
inductive Within : ClassDef → ClassDef → Prop
  | self (c : ClassDef) : Within c c
  | nested {c d outer : ClassDef} (h : Within c d) (there : d ∈ outer.types) : Within c outer

/-- No name of a field begins with a space, however deep the field stands. -/
def IsFlush (c : ClassDef) : Prop :=
  ∀ d : ClassDef, d.Within c → ∀ f ∈ d.fields, f.name.toList.head? ≠ some ' '

mutual

/-- What holds of a class if it holds of those that stand in it holds of every class. -/
theorem nesting_induction {motive : ClassDef → Prop}
    (step : ∀ c, (∀ d ∈ c.types, motive d) → motive c) : ∀ c, motive c
  | ⟨_, _, _, types, _, _, _, _⟩ => step _ (nesting_induction_types step types)
termination_by structural c => c

theorem nesting_induction_types {motive : ClassDef → Prop}
    (step : ∀ c, (∀ d ∈ c.types, motive d) → motive c) :
    ∀ types : List ClassDef, ∀ d ∈ types, motive d
  | [], _, there => absurd there List.not_mem_nil
  | c :: rest, d, there => by
      rcases List.mem_cons.mp there with same | later
      · exact same ▸ nesting_induction step c
      · exact nesting_induction_types step rest d later
termination_by structural types => types

end

theorem IsFlush.own {c : ClassDef} (flush : c.IsFlush) :
    ∀ f ∈ c.fields, f.name.toList.head? ≠ some ' ' := flush c (.self c)

theorem IsFlush.nested {c d : ClassDef} (flush : c.IsFlush) (there : d ∈ c.types) : d.IsFlush :=
  fun e within => flush e (within.nested there)

theorem isFlush_of_nested {c : ClassDef} (own : ∀ f ∈ c.fields, f.name.toList.head? ≠ some ' ')
    (nested : ∀ d ∈ c.types, d.IsFlush) : c.IsFlush := by
  intro d within
  cases within with
  | self => exact own
  | nested within there => exact nested _ there d within

theorem IsFlush.within {c d : ClassDef} (flush : c.IsFlush) (within : d.Within c) : d.IsFlush := by
  induction within with
  | self => exact flush
  | nested _ there ih => exact ih (flush.nested there)

theorem blocks_eq_map (types : List ClassDef) : blocks types = types.map lines := by
  induction types with
  | nil => rfl
  | cons c rest ih => rw [blocks, ih, List.map_cons]

theorem map_members {α : Type} (f : Member → α) (own : List String → α)
    (plain : ∀ m : Member, ¬m.IsClass → f m = own m.lines) (c : ClassDef) :
    c.members.map f = if (c.ownBlocks.map own ++ c.types.map fun d => f (.nested d)).isEmpty
      then [own ["pass"]] else c.ownBlocks.map own ++ c.types.map fun d => f (.nested d) := by
  have documented : (if c.docstring == "" then [] else [Member.docstring c.docstring]).map f =
      (if c.docstring == "" then [] else [[docLine c.docstring]]).map own := by
    split_ifs
    · rfl
    · exact congrArg (fun x => [x]) (plain (.docstring c.docstring) id)
  have fielded : (if c.fields.isEmpty then [] else [Member.fields c.fields]).map f =
      (if c.fields.isEmpty then [] else [c.fields.map FieldDef.line]).map own := by
    split_ifs
    · rfl
    · exact congrArg (fun x => [x]) (plain (.fields c.fields) id)
  have methods : c.methods.map (f ∘ Member.method) = (c.methods.map MethodDef.lines).map own := by
    rw [List.map_map]
    exact List.map_congr_left fun m _ => plain (.method m) id
  have declared : c.declared.map f =
      c.ownBlocks.map own ++ c.types.map fun d => f (.nested d) := by
    rw [declared, ownBlocks, List.map_append, List.map_append, List.map_append, List.map_append,
      List.map_append, documented, fielded, List.map_map, List.map_map, methods]
    rfl
  rw [← declared, List.isEmpty_map, members]
  split_ifs
  · exact congrArg (fun x => [x]) (plain .pass id)
  · rfl

theorem lines_eq (c : ClassDef) : c.lines = c.headLine :: c.body := by
  have indented : c.members.map (fun m => m.lines.map indentLine) =
      (c.members.map Member.lines).map fun block => block.map indentLine := by
    rw [List.map_map]
    rfl
  rw [body, indented, map_members Member.lines id (fun _ _ => rfl), List.map_id]
  obtain ⟨name, fields, methods, types, superclass, interfaces, docstring, imports⟩ := c
  rw [lines, blocks_eq_map]
  rfl

end ClassDef

/-! ### The lines of a member -/

theorem FieldDef.line_eq (f : FieldDef) : ∃ rest, f.line.toList = f.name.toList ++ ':' :: rest := by
  simp [FieldDef.line, String.toList_append]

theorem FieldDef.line_ne (f : FieldDef) : f.line ≠ "" := by
  obtain ⟨rest, line⟩ := f.line_eq
  rintro empty
  rw [empty] at line
  simp at line

theorem FieldDef.indentation_line {f : FieldDef} (flush : f.name.toList.head? ≠ some ' ') :
    indentation f.line = 0 := by
  obtain ⟨rest, line⟩ := f.line_eq
  rw [indentation_eq_zero_iff, line, List.head?_append]
  cases first : f.name.toList.head? with
  | none => simp
  | some c => rwa [first] at flush

/-- The first line of a method begins with a letter or a mark that no class begins with. -/
theorem MethodDef.lines_cons (m : MethodDef) : ∃ first rest, m.lines = first :: rest ∧
    (first.toList.head? = some '@' ∨ first.toList.head? = some 'd') := by
  unfold MethodDef.lines
  by_cases static : m.isStatic = true
  · simp [static]
  · simp [static, String.toList_append]

theorem MethodDef.empty_not_mem_lines (m : MethodDef) : "" ∉ m.lines := by
  unfold MethodDef.lines
  by_cases static : m.isStatic = true <;> by_cases undocumented : m.docstring = "" <;>
    simp [static, undocumented]

theorem docLine_head? (docstring : String) : (docLine docstring).toList.head? = some '"' := by
  simp [docLine, String.toList_append]

theorem ClassDef.headLine_eq (c : ClassDef) :
    ∃ rest, c.headLine.toList = "class ".toList ++ rest := by
  simp [ClassDef.headLine, String.toList_append]

theorem ne_empty_of_head? {line : String} {c : Char} (first : line.toList.head? = some c) :
    line ≠ "" := by
  rintro rfl
  cases first

theorem ClassDef.headLine_ne (c : ClassDef) : c.headLine ≠ "" := by
  obtain ⟨rest, head⟩ := c.headLine_eq
  exact ne_empty_of_head? (c := 'c') (by rw [head]; rfl)

/-- Only between members of a class there are empty lines. -/
theorem Member.empty_not_mem_lines {m : Member} (plain : ¬m.IsClass) : "" ∉ m.lines := by
  cases m with
  | docstring text => simpa [Member.lines] using (ne_empty_of_head? (docLine_head? text)).symm
  | fields fs => simpa [Member.lines] using fun f _ => f.line_ne
  | method m => exact m.empty_not_mem_lines
  | nested c => exact absurd trivial plain
  | pass => simp [Member.lines]

/-- The fields among the members are there, and their names do not begin with a space. -/
def Member.IsFlush : Member → Prop
  | fields fs => fs ≠ [] ∧ ∀ f ∈ fs, f.name.toList.head? ≠ some ' '
  | _ => True

theorem Member.IsFlush.begins {m : Member} (flush : m.IsFlush) :
    ∃ first rest, m.lines = first :: rest ∧ first ≠ "" ∧ indentation first = 0 := by
  have of_head? : ∀ {line : String} {c : Char}, line.toList.head? = some c → c ≠ ' ' →
      line ≠ "" ∧ indentation line = 0 := by
    intro line c first letter
    refine ⟨ne_empty_of_head? first, indentation_eq_zero_iff.mpr ?_⟩
    simpa [first] using letter
  cases m with
  | docstring text => exact ⟨_, [], rfl, of_head? (docLine_head? text) (by decide)⟩
  | fields fs =>
      obtain ⟨some, names⟩ := flush
      obtain ⟨f, rest, rfl⟩ := List.exists_cons_of_ne_nil some
      exact ⟨_, _, rfl, f.line_ne, FieldDef.indentation_line (names f List.mem_cons_self)⟩
  | method m =>
      obtain ⟨first, rest, lines, mark | letter⟩ := m.lines_cons
      · exact ⟨first, rest, lines, of_head? mark (by decide)⟩
      · exact ⟨first, rest, lines, of_head? letter (by decide)⟩
  | nested c =>
      obtain ⟨rest, head⟩ := c.headLine_eq
      exact ⟨_, _, c.lines_eq, of_head? (c := 'c') (by rw [head]; rfl) (by decide)⟩
  | pass => exact ⟨_, [], rfl, by decide, rfl⟩

theorem mem_intercalate {blocks : List (List String)} {line : String}
    (there : line ∈ List.intercalate [""] blocks) : line = "" ∨ ∃ block ∈ blocks, line ∈ block := by
  induction blocks with
  | nil => cases there
  | cons block rest ih =>
      cases rest with
      | nil => exact Or.inr ⟨block, List.mem_cons_self, by simpa [List.intercalate] using there⟩
      | cons second rest =>
          rw [List.intercalate_cons_cons, List.mem_append, List.mem_append] at there
          rcases there with (there | there) | there
          · exact Or.inr ⟨block, List.mem_cons_self, there⟩
          · exact Or.inl (List.mem_singleton.mp there)
          · exact (ih there).imp_right fun ⟨block, hb, there⟩ =>
              ⟨block, List.mem_cons_of_mem _ hb, there⟩

namespace ClassDef
variable {c : ClassDef}

theorem mem_members {m : Member} (hm : m ∈ c.members) :
    m = .pass ∨ m = .docstring c.docstring ∨ (m = .fields c.fields ∧ c.fields ≠ []) ∨
      (∃ method ∈ c.methods, m = .method method) ∨ ∃ d ∈ c.types, m = .nested d := by
  unfold members at hm
  split_ifs at hm
  · exact Or.inl (List.mem_singleton.mp hm)
  · refine Or.inr ?_
    simp only [declared, List.mem_append, List.mem_map] at hm
    rcases hm with ((hm | hm) | ⟨method, there, rfl⟩) | ⟨d, there, rfl⟩
    · split_ifs at hm
      · cases hm
      · exact Or.inl (List.mem_singleton.mp hm)
    · split_ifs at hm with none
      · cases hm
      · exact Or.inr (Or.inl ⟨List.mem_singleton.mp hm, by simpa using none⟩)
    · exact Or.inr (Or.inr (Or.inl ⟨method, there, rfl⟩))
    · exact Or.inr (Or.inr (Or.inr ⟨d, there, rfl⟩))

theorem members_ne_nil (c : ClassDef) : c.members ≠ [] := by
  unfold members
  split_ifs with none
  · exact List.cons_ne_nil _ _
  · exact fun empty => none (List.isEmpty_iff.mpr empty)

theorem nested_or_plain {m : Member} (hm : m ∈ c.members) :
    (∃ d ∈ c.types, m = .nested d) ∨ ¬m.IsClass := by
  rcases mem_members hm with rfl | rfl | ⟨rfl, -⟩ | ⟨_, -, rfl⟩ | nested
  · exact Or.inr id
  · exact Or.inr id
  · exact Or.inr id
  · exact Or.inr id
  · exact Or.inl nested

theorem flush_of_mem_members (own : ∀ f ∈ c.fields, f.name.toList.head? ≠ some ' ') {m : Member}
    (hm : m ∈ c.members) : m.IsFlush := by
  rcases mem_members hm with rfl | rfl | ⟨rfl, some⟩ | ⟨_, -, rfl⟩ | ⟨_, -, rfl⟩
  · trivial
  · trivial
  · exact ⟨some, own⟩
  · trivial
  · trivial

/-- The lines of a class after its first one are indented, apart from the empty ones. -/
theorem indented_of_mem_body {line : String} (there : line ∈ c.body) :
    line = "" ∨ 4 ≤ indentation line := by
  rcases mem_intercalate there with empty | ⟨block, hb, there⟩
  · exact Or.inl empty
  · obtain ⟨m, -, rfl⟩ := List.mem_map.mp hb
    obtain ⟨line, -, rfl⟩ := List.mem_map.mp there
    by_cases empty : line = ""
    · exact Or.inl (indentLine_eq_empty_iff.mpr empty)
    · rw [indentation_indentLine empty]
      exact Or.inr (Nat.le_add_left _ _)

end ClassDef

/-- A member is not cut: the empty lines in a nested class are followed by lines that are indented
by eight spaces at least. -/
theorem Member.uncut (m : Member) : Uncut (m.lines.map indentLine) := by
  by_cases plain : m.IsClass
  · cases m with
    | nested c =>
        show Uncut (c.lines.map indentLine)
        rw [c.lines_eq, List.map_cons]
        refine List.pairwise_cons.mpr ⟨fun _ _ empty => ?_, ?_⟩
        · exact absurd (indentLine_eq_empty_iff.mp empty) c.headLine_ne
        · refine List.pairwise_of_forall_mem_list ?_
          intro _ _ later hl _
          obtain ⟨line, there, rfl⟩ := List.mem_map.mp hl
          rcases ClassDef.indented_of_mem_body there with rfl | four
          · decide
          · rw [indentation_indentLine (by rintro rfl; cases four)]
            omega
    | _ => exact plain.elim
  · refine List.pairwise_of_forall_mem_list ?_
    intro line hl _ _ empty
    obtain ⟨line, there, rfl⟩ := List.mem_map.mp hl
    exact absurd (indentLine_eq_empty_iff.mp empty ▸ there) (Member.empty_not_mem_lines plain)

/-- The lines of a class are cut into its members. -/
theorem ClassDef.cutBlocks_body {c : ClassDef}
    (own : ∀ f ∈ c.fields, f.name.toList.head? ≠ some ' ') :
    cutBlocks c.body = c.members.map fun m => m.lines.map indentLine := by
  refine cutBlocks_intercalate (by simpa using c.members_ne_nil) ?_ ?_
  · rw [List.forall_mem_map]
    exact fun m _ => m.uncut
  · rw [List.forall_mem_map]
    intro m hm
    obtain ⟨first, rest, lines, written, zero⟩ := (flush_of_mem_members own hm).begins
    exact ⟨_, _, by rw [lines, List.map_cons], by rw [indentation_indentLine written, zero]⟩

end Preferences

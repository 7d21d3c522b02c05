import Preferences.Proofs.Source.ClassBlocks

/-! # The tree of classes in the lines of a class

An `Outline` is what a reader sees of a class: its first line and its members, each either plain
lines or the outline of a nested class.  `Outline.ofLines` reads it off the lines alone.  This is
possible because of all members only a nested class has `class` at the head of its first line and an
indented second line (`Member.beginsClass_lines_of_plain`).  What is read is the outline of the
class that was written (`ClassDef.ofLines_lines`), and the outline also tells how many empty lines
there are (`ClassDef.count_lines`). -/

namespace Preferences

open Source

/-- What can be read off the lines of a class. -/
inductive Outline
  | block (lines : List String)
  | classDef (first : String) (members : List Outline)

namespace Outline

mutual

/-- The number of gaps between the members of classes. -/
def gaps : Outline → Nat
  | block _ => 0
  | classDef _ members => (members.length - 1) + gapsIn members
termination_by structural o => o

/-- The number of gaps in all of the outlines. -/
def gapsIn : List Outline → Nat
  | [] => 0
  | o :: rest => o.gaps + gapsIn rest
termination_by structural os => os

end

/-- Whether the lines begin as those of a class do: with the word for it, and then an indented
line. -/
def beginsClass : List String → Bool
  | first :: second :: _ => "class ".toList.isPrefixOf first.toList && indentation second != 0
  | _ => false

/-- The outline in the lines of a member. -/
def ofLines : List String → Outline
  | [] => block []
  | first :: rest =>
    if beginsClass (first :: rest) then
      classDef first ((cutBlocks rest).attach.map fun ⟨piece, _⟩ =>
        ofLines (piece.map outdentLine))
    else block (first :: rest)
termination_by lines => lines.length
decreasing_by
  rw [List.length_map, List.length_cons]
  exact Nat.lt_succ_of_le (length_le_of_mem_cutBlocks ‹_›)

theorem ofLines_of_beginsClass {first : String} {rest : List String}
    (begins : beginsClass (first :: rest) = true) : ofLines (first :: rest) =
      classDef first ((cutBlocks rest).map fun piece => ofLines (piece.map outdentLine)) := by
  rw [ofLines, if_pos begins]
  simp

end Outline

open Outline

mutual

def ClassDef.outline : ClassDef → Outline
  | ⟨name, fields, methods, types, superclass, interfaces, docstring, imports⟩ =>
    let c : ClassDef := ⟨name, fields, methods, [], superclass, interfaces, docstring, imports⟩
    let members := c.ownBlocks.map Outline.block ++ ClassDef.outlines types
    .classDef c.headLine (if members.isEmpty then [.block ["pass"]] else members)
termination_by structural c => c

def ClassDef.outlines : List ClassDef → List Outline
  | [] => []
  | c :: rest => c.outline :: ClassDef.outlines rest
termination_by structural cs => cs

end

def Member.outline : Member → Outline
  | nested c => c.outline
  | m => .block m.lines

theorem ClassDef.outlines_eq_map (types : List ClassDef) :
    outlines types = types.map outline := by
  induction types with
  | nil => rfl
  | cons c rest ih => rw [outlines, ih, List.map_cons]

theorem Member.outline_of_plain {m : Member} (plain : ¬m.IsClass) : m.outline = .block m.lines := by
  cases m with
  | nested c => exact absurd trivial plain
  | _ => rfl

theorem ClassDef.outline_eq (c : ClassDef) :
    c.outline = .classDef c.headLine (c.members.map Member.outline) := by
  rw [map_members Member.outline .block fun _ plain => Member.outline_of_plain plain]
  obtain ⟨name, fields, methods, types, superclass, interfaces, docstring, imports⟩ := c
  rw [outline, outlines_eq_map]
  rfl

/-! ### Empty lines -/

theorem Outline.gapsIn_eq_sum (os : List Outline) : gapsIn os = (os.map gaps).sum := by
  induction os with
  | nil => rfl
  | cons o rest ih => rw [gapsIn, ih, List.map_cons, List.sum_cons]

/-- The empty lines of a class are the gaps between members, its own and those of the classes in
it. -/
theorem ClassDef.count_lines (c : ClassDef) : c.lines.count "" = c.outline.gaps := by
  induction c using ClassDef.nesting_induction with
  | step c ih =>
      have each : ∀ m ∈ c.members, (m.lines.map indentLine).count "" = m.outline.gaps := by
        intro m hm
        rw [count_map_indentLine]
        rcases nested_or_plain hm with ⟨d, there, rfl⟩ | plain
        · exact ih d there
        · rw [Member.outline_of_plain plain]
          exact List.count_eq_zero.mpr (Member.empty_not_mem_lines plain)
      rw [c.lines_eq, List.count_cons_of_ne c.headLine_ne, body, count_intercalate, c.outline_eq,
        gaps, gapsIn_eq_sum, List.map_map, List.map_map, List.length_map, List.length_map,
        Nat.add_comm]
      exact congrArg _ (congrArg List.sum (List.map_congr_left each))

/-! ### Reading the lines -/

theorem ClassDef.body_cons {c : ClassDef}
    (own : ∀ f ∈ c.fields, f.name.toList.head? ≠ some ' ') :
    ∃ line rest, c.body = line :: rest ∧ indentation line = 4 := by
  obtain ⟨m, members, some⟩ := List.exists_cons_of_ne_nil c.members_ne_nil
  have flush := flush_of_mem_members own (some ▸ List.mem_cons_self : m ∈ c.members)
  obtain ⟨first, rest, lines, written, zero⟩ := flush.begins
  have four : indentation (indentLine first) = 4 := by rw [indentation_indentLine written, zero]
  rw [body, some, List.map_cons, lines, List.map_cons]
  cases members with
  | nil => exact ⟨_, _, by simp [List.intercalate]; rfl, four⟩
  | cons second members =>
      exact ⟨_, _, by rw [List.map_cons, List.intercalate_cons_cons]; rfl, four⟩

theorem ClassDef.beginsClass_lines {c : ClassDef}
    (own : ∀ f ∈ c.fields, f.name.toList.head? ≠ some ' ') : beginsClass c.lines = true := by
  obtain ⟨line, rest, body, four⟩ := c.body_cons own
  obtain ⟨later, head⟩ := c.headLine_eq
  have begins : "class ".toList.isPrefixOf c.headLine.toList = true := by
    rw [head]
    exact List.isPrefixOf_iff_prefix.mpr (List.prefix_append _ _)
  rw [c.lines_eq, body, beginsClass, begins, four]
  rfl

theorem Member.beginsClass_lines_of_plain {m : Member} (plain : ¬m.IsClass) (flush : m.IsFlush) :
    beginsClass m.lines = false := by
  cases m with
  | docstring text => rfl
  | fields fs =>
      obtain ⟨-, names⟩ := flush
      rcases fs with - | ⟨first, - | ⟨second, rest⟩⟩
      · rfl
      · rfl
      · have zero : indentation second.line = 0 :=
          FieldDef.indentation_line (names second (by simp))
        simp [Member.lines, beginsClass, zero]
  | method m =>
      obtain ⟨first, rest, lines, other⟩ := m.lines_cons
      rw [Member.lines, lines]
      cases rest with
      | nil => rfl
      | cons second rest =>
          rw [beginsClass, Bool.and_eq_false_iff]
          refine Or.inl (Bool.eq_false_iff.mpr fun begins => ?_)
          obtain ⟨later, same⟩ := List.isPrefixOf_iff_prefix.mp begins
          rw [← same] at other
          simp at other
  | nested c => exact absurd trivial plain
  | pass => rfl

theorem ClassDef.ofLines_lines {c : ClassDef} (flush : c.IsFlush) :
    ofLines c.lines = c.outline := by
  induction c using ClassDef.nesting_induction with
  | step c ih =>
      have begins := c.beginsClass_lines flush.own
      rw [c.lines_eq] at begins ⊢
      rw [ofLines_of_beginsClass begins, cutBlocks_body flush.own, List.map_map, c.outline_eq]
      refine congrArg _ (List.map_congr_left fun m hm => ?_)
      rw [Function.comp_apply, map_outdentLine_map_indentLine]
      rcases nested_or_plain hm with ⟨d, there, rfl⟩ | plain
      · exact ih d there (flush.nested there)
      · rw [Member.outline_of_plain plain]
        have other := Member.beginsClass_lines_of_plain plain (flush_of_mem_members flush.own hm)
        obtain ⟨first, rest, lines, -⟩ := (flush_of_mem_members flush.own hm).begins
        rw [lines] at other ⊢
        rw [ofLines, if_neg (by rw [other]; decide)]

/-- What the lines of a class tell, where no field has a name that begins with a space.  For the
class and every class in it: an indented line follows its first line, the lines after that one are
cut into its members, one empty line parts two members, and no other line is empty, apart from those
in nested classes, whose own lines are cut in the same way.  So the tree of classes is read off
again, and the empty lines are as many as the gaps between members. -/
theorem ClassDef.lines_told {c : ClassDef} (flush : c.IsFlush) :
    (∀ d : ClassDef, d.Within c →
      (∃ line rest, d.lines = d.headLine :: line :: rest ∧ indentation line = 4) ∧
      cutBlocks d.lines.tail = d.members.map (fun m => m.lines.map indentLine) ∧
      d.lines =
        d.headLine :: List.intercalate [""] (d.members.map fun m => m.lines.map indentLine) ∧
      d.headLine ≠ "" ∧ ∀ m ∈ d.members, ¬m.IsClass → "" ∉ m.lines) ∧
    ofLines c.lines = c.outline ∧ c.lines.count "" = c.outline.gaps := by
  refine ⟨fun d within => ?_, ofLines_lines flush, c.count_lines⟩
  have own := (flush.within within).own
  obtain ⟨line, rest, body, four⟩ := d.body_cons own
  refine ⟨⟨line, rest, ?_, four⟩, ?_, d.lines_eq, d.headLine_ne, ?_⟩
  · rw [d.lines_eq, body]
  · rw [d.lines_eq, List.tail_cons, cutBlocks_body own]
  · exact fun m _ plain => Member.empty_not_mem_lines plain

/-- A class with a field and a class that itself has a class in it. -/
def shelf : ClassDef where
  name := "Shelf"
  fields := [{ name := "size", type := "int" }]
  types := [{ name := "Row", docstring := "Slots.", types := [{ name := "Slot" }] }]

/-- The empty line in the nested class does not part members of the outer one. -/
theorem ClassDef.lines_told_shelf :
    shelf.IsFlush ∧ cutBlocks shelf.lines.tail = [["    size: int"],
      ["    class Row:", "        \"\"\"Slots.\"\"\"", "", "        class Slot:",
        "            pass"]] ∧
    ofLines shelf.lines = shelf.outline ∧ shelf.lines.count "" = 2 := by
  have flush : shelf.IsFlush := by
    refine isFlush_of_nested (by decide) (List.forall_mem_singleton.mpr ?_)
    refine isFlush_of_nested (by decide) (List.forall_mem_singleton.mpr ?_)
    exact isFlush_of_nested (by decide) nofun
  obtain ⟨each, outline, empty⟩ := ClassDef.lines_told flush
  obtain ⟨-, cut, -⟩ := each shelf (.self shelf)
  exact ⟨flush, cut.trans (by decide +kernel), outline, empty.trans rfl⟩

end Preferences

import Preferences.Proofs.Generation.Reports
import Preferences.Settings.Reading

/-! # The head of a module

The text of a module begins with a header, which is written behind a mark for comments, and then a
future import.  The mark stands in front of the first line of the header only.  So what comes before
the import is a comment exactly if the further lines of the header are empty or comments themselves,
and the first code of the module is the first of those lines that is neither (`head_comment_iff`);
where there is no such line, it is the future import. -/

namespace Preferences

namespace Text

/-- The physical lines of a text: a line ends at a line feed, at a carriage return, or at both in
this order. -/
def physicalLines : List Char → List (List Char)
  | [] => [[]]
  | '\r' :: '\n' :: rest => [] :: physicalLines rest
  | c :: rest =>
    if c = '\n' ∨ c = '\r' then [] :: physicalLines rest
    else (physicalLines rest).modifyHead (c :: ·)

/-- The physical lines of a text that a line feed follows. -/
def endedLines (s : List Char) : List (List Char) := (physicalLines (s ++ ['\n'])).dropLast

def IsComment (line : List Char) : Prop := line = [] ∨ line.head? = some '#'

instance : DecidablePred IsComment := fun _ => inferInstanceAs (Decidable (_ ∨ _))

theorem physicalLines_feed (rest : List Char) :
    physicalLines ('\n' :: rest) = [] :: physicalLines rest := by
  simp [physicalLines]

theorem physicalLines_other {c : Char} (other : ¬(c = '\n' ∨ c = '\r')) (rest : List Char) :
    physicalLines (c :: rest) = (physicalLines rest).modifyHead (c :: ·) := by
  rw [physicalLines, if_neg other]
  rintro rest rfl
  exact absurd (Or.inr rfl) other

theorem physicalLines_return {c : Char} (other : c ≠ '\n') (rest : List Char) :
    physicalLines ('\r' :: c :: rest) = [] :: physicalLines (c :: rest) := by
  rw [physicalLines, if_pos (Or.inr rfl)]
  rintro rest - same
  exact other (List.cons.inj same).1

/-- What comes behind a line feed has its own lines.  The lines before it are those of the text
before it, but a carriage return at the end of that text ends one line together with it. -/
theorem exists_endedLines (s : List Char) : ∃ lines,
    (∀ rest, physicalLines (s ++ '\n' :: rest) = lines ++ physicalLines rest) ∧
      lines ≠ [] ∧ (physicalLines s = lines ∨ physicalLines s = lines ++ [[]]) := by
  fun_induction physicalLines s with
  | case1 => exact ⟨[[]], physicalLines_feed, by simp, Or.inl rfl⟩
  | case2 rest ih =>
      obtain ⟨lines, follow, some, same⟩ := ih
      refine ⟨[] :: lines, fun later => ?_, by simp, ?_⟩
      · simp [physicalLines, follow]
      · simpa using same
  | case3 c rest alone ends ih =>
      obtain ⟨lines, follow, some, same⟩ := ih
      have further : physicalLines rest = lines ∨ physicalLines rest = lines ++ [[]] →
          [] :: physicalLines rest = [] :: lines ∨
            [] :: physicalLines rest = [] :: lines ++ [[]] := by
        simp
      rcases ends with rfl | rfl
      · refine ⟨[] :: lines, fun later => ?_, by simp, further same⟩
        rw [List.cons_append, physicalLines_feed, follow]
        rfl
      · cases rest with
        | nil => exact ⟨[[]], fun later => by simp [physicalLines], by simp, Or.inr rfl⟩
        | cons next rest =>
            refine ⟨[] :: lines, fun later => ?_, by simp, further same⟩
            have other : next ≠ '\n' := fun feed => alone rest rfl (by rw [feed])
            rw [List.cons_append, List.cons_append, physicalLines_return other,
              ← List.cons_append, follow]
            rfl
  | case4 c rest alone other ih =>
      obtain ⟨lines, follow, some, same⟩ := ih
      obtain ⟨first, lines, rfl⟩ := List.exists_cons_of_ne_nil some
      refine ⟨(c :: first) :: lines, fun later => ?_, by simp, ?_⟩
      · rw [List.cons_append, physicalLines_other other, follow]
        rfl
      · rcases same with same | same <;> simp [same]

theorem endedLines_spec (s : List Char) :
    (∀ rest, physicalLines (s ++ '\n' :: rest) = endedLines s ++ physicalLines rest) ∧
      endedLines s ≠ [] ∧
        (physicalLines s = endedLines s ∨ physicalLines s = endedLines s ++ [[]]) := by
  obtain ⟨lines, follow, some, same⟩ := exists_endedLines s
  have ended : endedLines s = lines := by
    rw [endedLines, follow, physicalLines, List.dropLast_concat]
  rw [ended]
  exact ⟨follow, some, same⟩

theorem physicalLines_append (s rest : List Char) :
    physicalLines (s ++ '\n' :: rest) = endedLines s ++ physicalLines rest :=
  (endedLines_spec s).1 rest

theorem endedLines_append (s rest : List Char) :
    endedLines (s ++ '\n' :: rest) = endedLines s ++ endedLines rest := by
  have some : physicalLines (rest ++ ['\n']) ≠ [] := by
    rw [physicalLines_append]
    simp [(endedLines_spec rest).2.1]
  rw [endedLines, List.append_assoc, List.cons_append, physicalLines_append,
    List.dropLast_append_of_ne_nil some]
  rfl

theorem endedLines_other {c : Char} (other : ¬(c = '\n' ∨ c = '\r')) (s : List Char) :
    endedLines (c :: s) = (endedLines s).modifyHead (c :: ·) := by
  obtain ⟨first, lines, cut⟩ := List.exists_cons_of_ne_nil (endedLines_spec s).2.1
  have whole := physicalLines_append s []
  rw [cut] at whole
  rw [endedLines, List.cons_append, physicalLines_other other, whole, cut]
  exact @List.dropLast_concat _ ((c :: first) :: lines) []

theorem endedLines_of_unbroken {s : List Char} (noFeed : '\n' ∉ s) (noReturn : '\r' ∉ s) :
    endedLines s = [s] := by
  induction s with
  | nil => rfl
  | cons c s ih =>
      obtain ⟨feed, noFeed⟩ := List.ne_and_not_mem_of_not_mem_cons noFeed
      obtain ⟨ret, noReturn⟩ := List.ne_and_not_mem_of_not_mem_cons noReturn
      rw [endedLines_other (not_or.mpr ⟨feed.symm, ret.symm⟩), ih noFeed noReturn]
      rfl

/-- Whether the text ends in a carriage return makes no difference to what is no comment. -/
theorem find?_tail_endedLines (s : List Char) :
    (endedLines s).tail.find? (¬IsComment ·) = (physicalLines s).tail.find? (¬IsComment ·) := by
  obtain ⟨-, some, same | same⟩ := endedLines_spec s
  · rw [same]
  · rw [same, List.tail_append_of_ne_nil some, List.find?_append]
    simp [IsComment]

theorem forall_isComment_iff {lines : List (List Char)} :
    (∀ line ∈ lines, IsComment line) ↔ lines.find? (¬IsComment ·) = none := by
  simp [List.find?_eq_none]

end Text

open Text

/-- The line that makes annotations plain texts; it has to be the first statement of a module. -/
def futureImport : String := "from __future__ import annotations"

/-- The text of a module: its header behind the mark for comments, an empty line, the future import,
and what does not depend on the header. -/
theorem moduleText_eq (classes : List ClassDef) : ∃ after : String, ∀ header : String,
    moduleText header classes = "# " ++ header ++ "\n\n" ++ futureImport ++ "\n" ++ after := by
  have ended : ∀ (line : String) (rest : List String), ∃ after : String,
      "\n".intercalate (line :: rest) ++ "\n" = line ++ "\n" ++ after := by
    intro line rest
    cases rest with
    | nil => exact ⟨"", by simp⟩
    | cons next rest =>
        exact ⟨"\n".intercalate (next :: rest) ++ "\n", by
          rw [String.intercalate_cons_cons, String.append_assoc]⟩
  have lines : ∃ rest, ∀ header, moduleLines header classes =
      ("# " ++ header) :: "" :: futureImport :: rest := ⟨_, fun _ => rfl⟩
  obtain ⟨rest, lines⟩ := lines
  obtain ⟨after, ended⟩ := ended futureImport rest
  refine ⟨after, fun header => ?_⟩
  have joined : moduleText header classes =
      "# " ++ header ++ "\n" ++
        ("" ++ "\n" ++ ("\n".intercalate (futureImport :: rest) ++ "\n")) := by
    rw [moduleText, lines, String.intercalate_cons_cons, String.intercalate_cons_cons]
    simp only [String.append_assoc]
  have twice : "\n\n" = "\n" ++ "\n" := by decide
  rw [joined, ended]
  simp only [twice, String.append_assoc, String.empty_append]

theorem find?_head (header : String) :
    (endedLines ("# " ++ header ++ "\n").toList).find? (¬IsComment ·) =
      (physicalLines header.toList).tail.find? (¬IsComment ·) := by
  obtain ⟨first, lines, cut⟩ := List.exists_cons_of_ne_nil (endedLines_spec header.toList).2.1
  have head : endedLines ("# " ++ header ++ "\n").toList =
      ('#' :: ' ' :: first) :: lines ++ [[]] := by
    rw [String.toList_append, String.toList_append]
    show endedLines ('#' :: ' ' :: header.toList ++ '\n' :: []) = _
    rw [endedLines_append, endedLines_other (by decide), endedLines_other (by decide), cut]
    rfl
  rw [← find?_tail_endedLines, head, cut, List.tail_cons, List.find?_append]
  simp [IsComment]

/-- What stands before the future import of a module.  Its lines are empty or comments exactly if so
are those of the header after its first one; and the first line of the module that is neither is the
first such line of the header, if it has one there, and the future import otherwise. -/
theorem head_comment_iff {classes : List ClassDef}
    (modules : ∀ i ∈ classes.flatMap (·.imports), i.module.isText = true)
    (names : ∀ name ∈ ClassDef.namesIn classes, name.isText = true) (header : String) :
    ∃ text after, renderModule header classes = .ok text ∧
      text = "# " ++ header ++ "\n\n" ++ futureImport ++ "\n" ++ after ∧
      physicalLines text.toList = endedLines ("# " ++ header ++ "\n").toList ++
        futureImport.toList :: physicalLines after.toList ∧
      ((∀ line ∈ endedLines ("# " ++ header ++ "\n").toList, IsComment line) ↔
        ∀ line ∈ (physicalLines header.toList).tail, IsComment line) ∧
      (physicalLines text.toList).find? (¬IsComment ·) =
        ((physicalLines header.toList).tail.find? (¬IsComment ·)).or
          (some futureImport.toList) := by
  obtain ⟨after, text⟩ := moduleText_eq classes
  have lines : physicalLines (moduleText header classes).toList =
      endedLines ("# " ++ header ++ "\n").toList ++
        futureImport.toList :: physicalLines after.toList := by
    have future : endedLines futureImport.toList = [futureImport.toList] :=
      endedLines_of_unbroken (by decide) (by decide)
    have chars : (moduleText header classes).toList = ("# " ++ header ++ "\n").toList ++
        '\n' :: (futureImport.toList ++ '\n' :: after.toList) := by
      rw [text]
      simp [String.toList_append]
    rw [chars, physicalLines_append, physicalLines_append, future]
    rfl
  refine ⟨_, after, ?_, text header, lines, ?_, ?_⟩
  · exact renderModule_of_writable (Value.isWritable_text header)
      (fun i hi => Value.isKey_of_isText (modules i hi))
      (fun i hi => Value.isWritable_of_isText (modules i hi))
      (fun name hn => Value.isWritable_of_isText (names name hn))
  · rw [forall_isComment_iff, forall_isComment_iff, find?_head]
  · rw [lines, List.find?_append, find?_head, List.find?_cons_of_pos]
    decide

/-- A class that has an import. -/
def lockedRow : ClassDef where
  name := "Row"
  imports := [{ module := "threading" }]

/-- A header of two lines, the second of which is a comment itself. -/
theorem head_comment_iff_commented :
    (∀ i ∈ [lockedRow].flatMap (·.imports), i.module.isText = true) ∧
    (∀ name ∈ ClassDef.namesIn [lockedRow], name.isText = true) ∧
    ∃ text, renderModule (.text "Generated.\r\n# Ours.") [lockedRow] = .ok text ∧
      (physicalLines text.toList).find? (¬IsComment ·) = some futureImport.toList := by
  have modules : ∀ i ∈ [lockedRow].flatMap (·.imports), i.module.isText = true := by decide
  have names : ∀ name ∈ ClassDef.namesIn [lockedRow], name.isText = true := by decide
  obtain ⟨text, -, written, -, -, -, first⟩ :=
    head_comment_iff modules names "Generated.\r\n# Ours."
  exact ⟨modules, names, text, written, first.trans (by decide +kernel)⟩

/-- Settings may have a header that puts a statement in front of the future import. -/
theorem header_holds_code :
    (Settings.ofValue (.table [("header", "x\nimport os")]) none).toOption =
      some { header := "x\nimport os" } ∧
    ∃ text, renderModule (.text "x\nimport os") [] = .ok text ∧
      physicalLines text.toList = ["# x".toList, "import os".toList, [], futureImport.toList, []] ∧
      ¬IsComment "import os".toList :=
  ⟨by decide +kernel, _, rfl, by decide +kernel, by decide⟩

end Preferences

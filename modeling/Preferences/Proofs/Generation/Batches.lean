import Preferences.Proofs.Generation.Reports

/-! # Several classes at once

The report on a list of declarations is put together from what becomes of each of them: the classes
of those that are generated, in order, and an error for every other one that tells its name, why it
is rejected, and the place to blame (`generateAll_divided`).  So a list may be cut anywhere, and a
class that is rejected changes nothing for the others; only a line that is too long a number to be
written stops the whole list (`longLine_unreported`). -/

namespace Preferences.Generator

variable {g : Generator} {ds : List Declaration}

/-- **A report divides its declarations without a loss.**  If all entries have the right kinds and
the line of every rejection can be written, it holds the classes of the declarations that are
generated, in order, and an error for each of the others, in order, which tells the name of the
class, the text of the rejection and its place; and it counts as good exactly if every declaration
is generated.  A rejection on a line that cannot be written comes out in place of a report.  In all
cases the report on two lists in a row is the one on the first that goes on with the one on the
second. -/
theorem generateAll_divided (typed : ∀ d ∈ ds, d.IsTyped)
    (stored : ∀ entry ∈ g.table.entries, entry.2.IsTyped) :
    ((∀ d ∈ ds, g.Reportable d) → ∃ report, g.generateAll ds = .ok report ∧
      report.types = g.generated ds ∧
      List.Forall₂ g.Diagnoses (g.refused ds) report.diagnostics ∧
      (report.ok = true ↔ ∀ d ∈ ds, ∃ c, g.generate d = .ok c)) ∧
    ((¬∀ d ∈ ds, g.Reportable d) → g.generateAll ds = .error (.misused .unwritable)) ∧
    ∀ before after, ds = before ++ after → g.generateAll ds = do
      let first ← g.generateAll before
      let second ← g.generateAll after
      return first.append second := by
  refine ⟨fun reportable => ?_, generateAll_of_unreportable typed stored, ?_⟩
  · obtain ⟨report, reported, types, diagnosed⟩ :=
      generateAll_of_reportable typed stored reportable
    exact ⟨report, reported, types, diagnosed, ok_iff_of_diagnosed diagnosed⟩
  · rintro before after rfl
    exact generateAll_append before after

/-- The line of a file without a name. -/
def onLine (n : Int) : Location := ⟨none, .int n⟩

theorem modes_ne_empty : "modes" ≠ "" := by decide

/-- A class on a line that reads one preference, which may be on a line of its own. -/
def readingOne (valueType : String) (line : Int) (own : Option Int) : Declaration where
  source := ⟨"modes", "Settings"⟩
  name := "SettingsImpl"
  preferences := [{
    name := "mode", valueType := valueType, getter := { name := "mode" }
    location := own.map onLine }]
  isInterface := false
  store := .default
  hook := none
  location := some (onLine line)
  source_module_ne := modes_ne_empty
  preferences_ne := List.cons_ne_nil _ _

section readingOne
variable {valueType : String} {line : Int} {own : Option Int} {place : Option Location}

theorem readingOne_isTyped : (readingOne valueType line own).IsTyped where
  name := rfl
  preferences := List.forall_mem_singleton.mpr
    ⟨rfl, rfl, Or.inl rfl, by simp [Preference.declaredMethods, Mutator.method?, Value.isText]⟩
  store := Or.inl rfl
  hook := nofun

theorem readingOne_int : ∃ c, ({} : Generator).generate (readingOne "int" 1 none) = .ok c :=
  exists_ok_of_isSome (by decide +kernel)

theorem readingOne_unsupported : ({} : Generator).Unsupported (readingOne "bytes" line own)
    ⟨.unsupportedType "bytes" "SettingsImpl", own.map onLine <|> some (onLine line)⟩ :=
  ⟨[], _, [], "bytes", rfl, by simp, rfl, by decide +kernel, rfl⟩

theorem readingOne_rejected (line : Int) (own : Option Int)
    (writable : (Value.int (own.getD line)).isWritable = true) :
    ∃ r, ({} : Generator).generate (readingOne "bytes" line own) = .error (.rejected r) := by
  refine ⟨_, (generate_of_unsupported readingOne_unsupported).trans
    (congrArg _ (ofRejection_eq_rejected_iff.mpr ⟨?_, rfl⟩))⟩
  cases own <;> simpa [Rejection.values, Reason.values, onLine] using writable

theorem place_of_blames
    (blamed : ({} : Generator).Blames (readingOne "bytes" line own) place) :
    place = (own.map onLine <|> some (onLine line)) := by
  rcases blamed with ⟨before, p, after, split, -, -, rfl⟩ | ⟨known, -⟩
  · obtain ⟨-, rfl, -⟩ : before = [] ∧ p = _ ∧ after = [] := by
      simpa [readingOne, List.singleton_eq_append_iff] using split
    rfl
  · exact absurd (known _ List.mem_cons_self)
      (not_resolves_of_unknown rfl (by decide +kernel))

end readingOne

/-- Three classes, two of them with a preference that no store holds. -/
def readingThree : List Declaration :=
  [readingOne "int" 1 none, readingOne "bytes" 2 (some 23), readingOne "bytes" 3 none]

/-- Of the three classes the first is generated, and the others are rejected: one at the place of
its preference, the other one at its own. -/
theorem generateAll_divided_readingThree :
    ∃ c report, ({} : Generator).generate (readingOne "int" 1 none) = .ok c ∧
      ({} : Generator).generateAll readingThree = .ok report ∧ report.types = [c] ∧
      report.diagnostics.map (·.location) = [some (onLine 23), some (onLine 3)] ∧
      report.ok = false := by
  obtain ⟨c, made⟩ := readingOne_int
  obtain ⟨r, near⟩ := readingOne_rejected 2 (some 23) (by decide +kernel)
  obtain ⟨r', failed⟩ := readingOne_rejected 3 none (by decide +kernel)
  have typed : ∀ d ∈ readingThree, d.IsTyped := by simp [readingThree, readingOne_isTyped]
  have settled : ∀ d ∈ readingThree, ({} : Generator).Settled d := by
    simp [readingThree, Settled, made, near, failed]
  obtain ⟨report, reported, types, diagnosed, ok⟩ :=
    (generateAll_divided typed standard_isTyped).1 fun d hd => reportable_of_settled (settled d hd)
  refine ⟨c, report, made, reported, ?_, ?_, ?_⟩
  · simp [types, generated, readingThree, made, near, failed, Except.toOption]
  · have refused : ({} : Generator).refused readingThree =
        [readingOne "bytes" 2 (some 23), readingOne "bytes" 3 none] := by
      simp [Generator.refused, readingThree, made, near, failed, Except.toOption]
    rw [refused] at diagnosed
    obtain ⟨e, _, first, later, split⟩ := List.forall₂_cons_left_iff.mp diagnosed
    obtain ⟨e', _, second, none, rfl⟩ := List.forall₂_cons_left_iff.mp later
    obtain rfl := List.forall₂_nil_left_iff.mp none
    rw [split]
    simp [place_of_blames first.location, place_of_blames second.location]
  · rw [Bool.eq_false_iff, Ne, ok]
    simp [readingThree, near]

/-- Where the line of a class is too long a number to be written, its rejection does not become an
error of a report, and the class that could be generated is lost with it. -/
theorem longLine_unreported :
    (∀ d ∈ [readingOne "bytes" longNumber none, readingOne "int" 1 none], d.IsTyped) ∧
    (∀ entry ∈ ({} : Generator).table.entries, entry.2.IsTyped) ∧
    (∃ c, ({} : Generator).generate (readingOne "int" 1 none) = .ok c) ∧
    ¬∃ report, ({} : Generator).generateAll
      [readingOne "bytes" longNumber none, readingOne "int" 1 none] = .ok report := by
  have typed : ∀ d ∈ [readingOne "bytes" longNumber none, readingOne "int" 1 none], d.IsTyped := by
    simp [readingOne_isTyped]
  have long : ¬∀ d ∈ [readingOne "bytes" longNumber none, readingOne "int" 1 none],
      ({} : Generator).Reportable d := by
    intro reportable
    have short := reportable _ List.mem_cons_self _ (Or.inl readingOne_unsupported) _ rfl
    exact Bool.false_ne_true (longNumber_unwritable.symm.trans short)
  refine ⟨typed, standard_isTyped, readingOne_int, ?_⟩
  rw [generateAll_of_unreportable typed standard_isTyped long]
  nofun

end Preferences.Generator

import Preferences.Text.Blank
import Preferences.Text.Case
import Preferences.Text.DecimalDigit
import Preferences.Text.ReplaceAll

/-! # Snake case

`snakeCase` writes a name in lower case with underscores between its words.  It works in passes:
runs of separators become one underscore, an underscore goes before the last capital of an acronym
that runs into a word, another one between a word and a capital, and at the end the name is lowered
and loses the underscores at both ends. -/

namespace Preferences.Naming

open Preferences.Text

/-- A capital letter from A to Z. -/
def isCapital (c : Char) : Bool := 'A' ≤ c && c ≤ 'Z'

/-- A small letter from a to z. -/
def isSmall (c : Char) : Bool := 'a' ≤ c && c ≤ 'z'

theorem isCapital_iff {c : Char} : isCapital c = true ↔ 65 ≤ c.toNat ∧ c.toNat ≤ 90 := by
  simp [isCapital, Char.le_def, UInt32.le_iff_toNat_le]

theorem isSmall_iff {c : Char} : isSmall c = true ↔ 97 ≤ c.toNat ∧ c.toNat ≤ 122 := by
  simp [isSmall, Char.le_def, UInt32.le_iff_toNat_le]

/-- A character that only separates words: a blank, a dash or a dot. -/
def isSeparator (c : Char) : Bool := isBlank c || c == '-' || c == '.'

/-- A character after which a capital starts a new word: a small letter or a digit. -/
def endsWord (c : Char) : Bool := isSmall c || isDigit c

/-- A run of separators, replaced by one underscore. -/
def separatorRun : Pattern := fun s =>
  let run := s.takeWhile isSeparator
  if run.isEmpty then none else some (['_'], run.length)

/-- At least two capitals and a small letter: the last capital starts a word of its own. -/
def acronymEnd : Pattern := fun s =>
  let run := s.takeWhile isCapital
  match s.dropWhile isCapital with
  | small :: _ =>
    if isSmall small && 2 ≤ run.length then
      some (run.dropLast ++ '_' :: (run.drop (run.length - 1) ++ [small]), run.length + 1)
    else none
  | [] => none

/-- A capital behind the end of a word. -/
def wordEnd : Pattern
  | last :: capital :: _ =>
    if endsWord last && isCapital capital then some ([last, '_', capital], 2) else none
  | _ => none

/-- The name with one underscore for every run of separators, and none at its ends. -/
def joinSeparators (name : List Char) : List Char := replaceAll separatorRun (trim name)

/-- The name with an underscore at every boundary between two words. -/
def markBoundaries (name : List Char) : List Char := replaceAll wordEnd (replaceAll acronymEnd name)

/-- The name in snake case. -/
def snakeCase (name : List Char) : List Char :=
  trimBy (· == '_') (lower (markBoundaries (joinSeparators name)))

end Preferences.Naming

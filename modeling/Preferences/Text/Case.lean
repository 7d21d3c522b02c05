import Preferences.Text.CaseTable

/-! # Upper and lower case

`upper` and `lower` map a whole text by the full case mappings, so that one character may become
several.  A capital sigma ends up in its final form exactly where it ends a word: a cased letter
comes before it and none comes after it, ignorable characters not counted. -/

namespace Preferences.Text

/-- The characters that the tables map `c` to; `c` itself where they say nothing. -/
def mapCase (runs : List CaseRun) (sequences : List (Nat × List Nat)) (c : Char) : List Char :=
  match runs.findSome? (·.imageOf? c.toNat) with
  | some n => [Char.ofNat n]
  | none =>
    match sequences.lookup c.toNat with
    | some ns => ns.map Char.ofNat
    | none => [c]

def upper (s : List Char) : List Char := s.flatMap (mapCase upperRuns upperSequences)

/-- Whether the first character that is not ignorable is a cased letter. -/
def meetsCased (s : List Char) : Bool :=
  match s.dropWhile caseIgnorable.has with
  | c :: _ => casedLetters.has c
  | [] => false

/-- The lower case of one character between the characters `before`, nearest first, and `after`. -/
def lowerBetween (before : List Char) (c : Char) (after : List Char) : List Char :=
  if c = 'Σ' then
    [if meetsCased before && !meetsCased after then 'ς' else 'σ']
  else mapCase lowerRuns lowerSequences c

/-- The lower case of a text that follows the characters `before`, nearest first. -/
def lowerAfter (before : List Char) : List Char → List Char
  | [] => []
  | c :: after => lowerBetween before c after ++ lowerAfter (c :: before) after

def lower (s : List Char) : List Char := lowerAfter [] s

end Preferences.Text

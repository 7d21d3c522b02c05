import Preferences.Text.DecimalDigit

/-! # The words of a command line

`CommandLine.pieces` reads the words of a command line against the switches of a command.  A switch
is written in full, or with two dashes and as many letters as no other spelling shares; a value
follows as the next word or behind an equals sign, and behind a switch of one letter without any
sign.  Switches of one letter may be written together if all but the last take no value, and an
equals sign behind the first of them does not count.  Two dashes alone end the switches.  Words that
look like negative numbers or contain a space are no switches. -/

namespace Preferences.CommandLine

/-- A switch of a command: its spellings, the full one first, and whether a value belongs to it. -/
structure Switch where
  spellings : List String
  takesValue : Bool
  deriving DecidableEq

def Switch.name (s : Switch) : String := s.spellings.headD ""

/-- A switch as it is given, with its value if it has one. -/
structure Given where
  switch : Switch
  value : Option String

/-- What a word is. -/
inductive Word
  /-- An ordinary word. -/
  | plain
  /-- Two dashes alone. -/
  | marker
  /-- A switch, with its spelling and the text attached to it, if there is one. -/
  | switch (found : Switch) (spelling : List Char) (attached : Option (List Char))
  /-- A switch that the command does not have. -/
  | unknown

/-! ### Telling words apart -/

/-- Whether what stands behind a dash makes it a negative number; a line break at the end is
passed over. -/
def isNumeral (s : List Char) : Bool :=
  let s := if s.getLast? = some '\n' then s.dropLast else s
  let whole := s.takeWhile Text.isDigit
  match s.dropWhile Text.isDigit with
  | [] => !whole.isEmpty
  | '.' :: fraction => !fraction.isEmpty && fraction.all Text.isDigit
  | _ => false

/-- The part of a word before the first equals sign, and the part behind it if there is a sign. -/
def splitEquals (s : List Char) : List Char × Option (List Char) :=
  let front := s.takeWhile (· != '=')
  match s.dropWhile (· != '=') with
  | [] => (front, none)
  | _ :: text => (front, some text)

/-- The switch of a spelling. -/
def spelled? (switches : List Switch) (spelling : List Char) : Option Switch :=
  switches.find? (·.spellings.contains (String.ofList spelling))

/-- The switches that a shortened word may mean: by its first letters behind two dashes, by its only
letter behind one. -/
def candidates (switches : List Switch) (s : List Char) : List Word :=
  let spellings := switches.flatMap fun switch => switch.spellings.map fun name => (switch, name)
  match s with
  | '-' :: '-' :: _ =>
    let (front, attached) := splitEquals s
    (spellings.filter fun (_, name) => front.isPrefixOf name.toList).map
      fun (switch, name) => .switch switch name.toList attached
  | dash :: letter :: attached =>
    (spellings.filter fun (_, name) => name.toList = [dash, letter]).map
      fun (switch, name) => .switch switch name.toList (some attached)
  | _ => []

/-- What a word that starts with a dash is, or nothing if it may mean several switches. -/
def dashed? (switches : List Switch) (s : List Char) : Option Word :=
  let (front, attached) := splitEquals s
  match spelled? switches s, spelled? switches front, candidates switches s with
  | some found, _, _ => some (.switch found s none)
  | none, some found, _ => some (.switch found front attached)
  | none, none, [found] => some found
  | none, none, _ :: _ :: _ => none
  | none, none, [] =>
    if isNumeral (s.drop 1) || s.contains ' ' then some .plain else some .unknown

/-- What a word is, or nothing if it may mean several switches. -/
def classify? (switches : List Switch) (word : String) : Option Word :=
  let s := word.toList
  if s = ['-', '-'] then some .marker
  else if s.head? = some '-' && s.length ≠ 1 then dashed? switches s
  else some .plain

/-- What each word is; behind the marker all words are plain. -/
def classifyAll? (switches : List Switch) : List String → Option (List (String × Word))
  | [] => some []
  | word :: rest => do
    match ← classify? switches word with
    | .marker => return (word, .marker) :: rest.map (·, .plain)
    | found => return (word, found) :: (← classifyAll? switches rest)

/-! ### Putting words together -/

/-- What stands on a command line, in order. -/
inductive Piece
  /-- The switches of one word. -/
  | given (switches : List Given)
  /-- An ordinary word, and all the words behind it. -/
  | plain (word : String) (behind : List String)
  /-- Two dashes alone. -/
  | marker
  /-- A switch that the command does not have. -/
  | unknown
  /-- A switch that is not given as it should be. -/
  | broken

/-- Switches that are written together: those in front, and the last one with the text attached to
it, if there is one. -/
structure Group where
  front : List Switch := []
  last : Switch
  attached : Option (List Char) := none

/-- Reads the text attached to a switch: as its value if it takes one, and otherwise, behind a
switch of one letter, as the letters of more switches; nothing if it cannot be read so. -/
def groupAttached? (switches : List Switch) :
    (found : Switch) → (isLetter : Bool) → List Char → Option Group
  | found, _, [] => if found.takesValue then some { last := found, attached := some [] } else none
  | found, isLetter, letter :: rest =>
    if found.takesValue then some { last := found, attached := some (letter :: rest) }
    else if !isLetter then none
    else do
      let next ← spelled? switches ['-', letter]
      let group ←
        if rest.isEmpty then some { last := next } else groupAttached? switches next true rest
      return { group with front := found :: group.front }

/-- The switches of one word; nothing if they cannot be written so. -/
def group? (switches : List Switch) (found : Switch) (isLetter : Bool) :
    Option (List Char) → Option Group
  | none => some { last := found }
  | some attached => groupAttached? switches found isLetter attached

/-- The pieces that classified words make. -/
def assemble (switches : List Switch) : List (String × Word) → List Piece
  | [] => []
  | (word, .plain) :: rest => .plain word (rest.map Prod.fst) :: assemble switches rest
  | (_, .marker) :: rest => .marker :: assemble switches rest
  | (_, .unknown) :: rest => .unknown :: assemble switches rest
  | (_, .switch found spelling attached) :: rest =>
    match group? switches found (spelling.length = 2) attached with
    | none => .broken :: assemble switches rest
    | some ⟨front, last, attached⟩ =>
      let flags := front.map fun switch => ⟨switch, none⟩
      match attached, rest with
      | some value, rest =>
        .given (flags ++ [⟨last, some (String.ofList value)⟩]) :: assemble switches rest
      | none, rest =>
        if !last.takesValue then .given (flags ++ [⟨last, none⟩]) :: assemble switches rest
        else
          match rest with
          | (word, .plain) :: rest =>
            .given (flags ++ [⟨last, some word⟩]) :: assemble switches rest
          | rest => .broken :: assemble switches rest

/-- The pieces of a command line, or nothing if a word may mean several switches. -/
def pieces? (switches : List Switch) (words : List String) : Option (List Piece) :=
  (classifyAll? switches words).map (assemble switches)

end Preferences.CommandLine

import Preferences.Toml.Quotation
import Preferences.Toml.Scalar
import Preferences.Toml.Tree

/-! # Reading a TOML document

`Toml.read` reads a document of TOML 1.0 into a table.  Values nest, so their readers take a bound
on the number of steps; every second step takes a character at least, so twice the length of the
document is always enough.  Values may not stand too deep within each other: an array takes two of
`maxNesting` levels, and a table between braces takes three.  Reading stops at the first fault. -/

namespace Preferences.Toml

/-- A reader that may find nothing, as one that finds the document malformed. -/
def orMalformed {α : Type} : Option α → Except Fault α
  | some a => .ok a
  | none => .error .malformed

/-- Takes a mark that has to stand here. -/
def expect (mark : Char) (s : List Char) : Except Fault (List Char) :=
  orMalformed (readMark? mark s)

/-! ### Keys -/

/-- One part of a key: bare, or a text on one line. -/
def readKeyPart (s : List Char) : Except Fault (String × List Char) :=
  let bare := s.takeWhile isBare
  if bare.isEmpty then
    (orMalformed (readLine? s)).map fun (name, rest) => (String.ofList name, rest)
  else .ok (String.ofList bare, s.dropWhile isBare)

/-- The parts of a key, separated by points; spaces may stand around each. -/
def readKeyWithin : (bound : Nat) → List Char → Except Fault (List String × List Char)
  | 0, _ => .error .malformed
  | bound + 1, s => do
    let (name, s) ← readKeyPart (skipSpaces s)
    match skipSpaces s with
    | '.' :: rest =>
      let (names, rest) ← readKeyWithin bound rest
      return (name :: names, rest)
    | rest => return ([name], rest)

def readKey (s : List Char) : Except Fault (List String × List Char) :=
  readKeyWithin (s.length + 1) s

/-- A key and the sign behind it that announces a value. -/
def readKeyAndSign (s : List Char) : Except Fault (List String × List Char) := do
  let (key, s) ← readKey s
  return (key, skipSpaces (← expect '=' s))

/-! ### Values -/

/-- The levels that arrays and tables between braces may take, one within the other. -/
def maxNesting : Nat := 985

/-- The levels that are left within a value that takes some of them. -/
def inner (room levels : Nat) : Except Fault Nat :=
  if room < levels then .error .tooDeep else .ok (room - levels)

mutual

/-- A value. -/
def readValueWithin : (bound room : Nat) → List Char → Except Fault (Value × List Char)
  | 0, _, _ => .error .malformed
  | bound + 1, room, s =>
    match s with
    | '[' :: rest => do
      let (items, rest) ← readItemsWithin bound (← inner room 2) rest
      return (.list items, rest)
    | '\x7b' :: rest => do
      let room ← inner room 3
      match skipSpaces rest with
      | '\x7d' :: rest => return (.table [], rest)
      | rest =>
        let (entries, rest) ← readEntriesWithin bound room [] rest
        return (.table (entryValues entries), rest)
    | '"' :: _ | '\'' :: _ =>
      (orMalformed (readText? s)).map fun (t, rest) => (.text (String.ofList t), rest)
    | s => readScalar s

/-- The items of an array up to its end, which may follow a comma. -/
def readItemsWithin : (bound room : Nat) → List Char → Except Fault (List Value × List Char)
  | 0, _, _ => .error .malformed
  | bound + 1, room, s => do
    match ← orMalformed (skipBlanks? false s) with
    | ']' :: rest => return ([], rest)
    | s =>
      let (item, s) ← readValueWithin bound room s
      match ← orMalformed (skipBlanks? false s) with
      | ']' :: rest => return ([item], rest)
      | ',' :: rest =>
        let (items, rest) ← readItemsWithin bound room rest
        return (item :: items, rest)
      | _ => throw .malformed

/-- The entries of a table between braces up to its end, which may not follow a comma. -/
def readEntriesWithin :
    (bound room : Nat) → Entries → List Char → Except Fault (Entries × List Char)
  | 0, _, _, _ => .error .malformed
  | bound + 1, room, entries, s => do
    let (key, s) ← readKeyAndSign s
    let (v, s) ← readValueWithin bound room s
    let entries ← orMalformed (entries.assign? 0 v key)
    match skipSpaces s with
    | '\x7d' :: rest => return (entries, rest)
    | ',' :: rest => readEntriesWithin bound room entries (skipSpaces rest)
    | _ => throw .malformed

end

def readValue (s : List Char) : Except Fault (Value × List Char) :=
  readValueWithin (2 * s.length + 1) maxNesting s

/-! ### Statements -/

/-- How far a document has been read: its tables, and the header and number of the section. -/
structure Progress where
  entries : Entries := []
  header : List String := []
  number : Nat := 0

/-- The progress after a header. -/
def Progress.enter (p : Progress) (header : List String) (entries : Option Entries) :
    Except Fault Progress := do
  return { entries := ← orMalformed entries, header, number := p.number + 1 }

/-- A header or an entry; the progress after it, and what stands behind it. -/
def readStatement (p : Progress) (s : List Char) : Except Fault (Progress × List Char) := do
  match s with
  | '[' :: '[' :: rest =>
    let (key, s) ← readKey rest
    let p ← p.enter key (p.entries.openElement? key)
    return (p, ← expect ']' (← expect ']' s))
  | '[' :: rest =>
    let (key, s) ← readKey rest
    let p ← p.enter key (p.entries.openTable? key)
    return (p, ← expect ']' s)
  | s =>
    let (key, s) ← readKeyAndSign s
    let (v, s) ← readValue s
    let entries ← orMalformed (p.entries.within? (Entries.assign? p.number v key) p.header)
    return ({ p with entries }, s)

/-- A line: nothing, or a statement, and perhaps a comment. -/
def readLine (p : Progress) (s : List Char) : Except Fault (Progress × List Char) := do
  match skipSpaces s with
  | [] => return (p, [])
  | '\n' :: rest => return (p, '\n' :: rest)
  | '#' :: rest => return (p, ← orMalformed (endOfComment? rest))
  | s =>
    let (p, s) ← readStatement p s
    return (p, ← orMalformed (skipComment? (skipSpaces s)))

/-- The lines of a document. -/
def readLinesWithin : (bound : Nat) → Progress → List Char → Except Fault Entries
  | 0, _, _ => .error .malformed
  | bound + 1, p, s => do
    let (p, s) ← readLine p s
    match s with
    | [] => return p.entries
    | '\n' :: rest => readLinesWithin bound p rest
    | _ => throw .malformed

def read (s : List Char) : Except Fault Value := do
  let s := plainLines s
  return .table (entryValues (← readLinesWithin (s.length + 1) {} s))

end Preferences.Toml

import Preferences.Value.Basic

/-! # The tables of a TOML document

While a document is read, its tables are a tree of nodes that remember how they came about, because
that decides what may still be added to them.  A table that a header has named is complete once its
section ends, one that only stands on the way to another may still be named, and one that a dotted
key has made may be added to only in its own section.  Values, with all that is inside them, are
closed. -/

namespace Preferences.Toml

/-- How a table came about. -/
inductive Origin
  /-- It stands on the way to a table that a header names. -/
  | passed
  /-- A dotted key of a section goes through it. -/
  | dotted (number : Nat)
  /-- A header names it. -/
  | named
  deriving DecidableEq

/-- What stands under a key: a value, a table, or an array of tables, of which the last is open. -/
inductive Node
  | leaf (v : Value)
  | table (origin : Origin) (entries : List (String × Node))
  | tables (closed : List (List (String × Node))) (last : List (String × Node))

/-- Entries of a table, in the order in which they came. -/
abbrev Entries := List (String × Node)

/-! ### Values of nodes -/

mutual

def Node.value : Node → Value
  | .leaf v => v
  | .table _ entries => .table (entryValues entries)
  | .tables closed last => .list (tableValues closed ++ [.table (entryValues last)])

def entryValues : List (String × Node) → List (Value × Value)
  | [] => []
  | (key, node) :: rest => (.text key, node.value) :: entryValues rest

def tableValues : List (List (String × Node)) → List Value
  | [] => []
  | entries :: rest => .table (entryValues entries) :: tableValues rest

end

/-! ### Changes -/

namespace Entries

/-- Changes what stands under a key, or adds it at the end. -/
def alter? (key : String) (change : Option Node → Option Node) : Entries → Option Entries
  | [] => (change none).map fun node => [(key, node)]
  | (other, old) :: rest =>
    if other = key then (change (some old)).map fun node => (other, node) :: rest
    else (alter? key change rest).map ((other, old) :: ·)

/-- Changes the table at the end of a path; tables that are missing on the way are made. -/
def within? (change : Entries → Option Entries) : List String → Entries → Option Entries
  | [], entries => change entries
  | key :: path, entries =>
    alter? key (fun
      | none => (within? change path []).map (.table .passed)
      | some (.table origin inner) => (within? change path inner).map (.table origin)
      | some (.tables closed last) => (within? change path last).map (.tables closed)
      | some (.leaf _) => none) entries

/-- Changes what stands under the last key of a path. -/
def alterAt? (path : List String) (change : Option Node → Option Node) (entries : Entries) :
    Option Entries :=
  match path.getLast? with
  | some key => within? (alter? key change) path.dropLast entries
  | none => none

/-- Opens the table that a header names. -/
def openTable? (path : List String) : Entries → Option Entries :=
  alterAt? path fun
    | none => some (.table .named [])
    | some (.table .passed inner) => some (.table .named inner)
    | _ => none

/-- Opens one more table of the array that a header names. -/
def openElement? (path : List String) : Entries → Option Entries :=
  alterAt? path fun
    | none => some (.tables [] [])
    | some (.tables closed last) => some (.tables (closed ++ [last]) [])
    | _ => none

/-- Enters a value under a dotted key of a section. -/
def assign? (number : Nat) (v : Value) : List String → Entries → Option Entries
  | [], _ => none
  | [key], entries =>
    alter? key (fun
      | none => some (.leaf v)
      | some _ => none) entries
  | key :: path, entries =>
    alter? key (fun
      | none => (assign? number v path []).map (.table (.dotted number))
      | some (.table origin inner) =>
        if origin = .passed ∨ origin = .dotted number then
          (assign? number v path inner).map (.table (.dotted number))
        else none
      | some _ => none) entries

end Entries

end Preferences.Toml

import Preferences.Source.ClassDef

/-! # Import statements

`merge` collects imports by their groups, and those of a group by their modules, so that each module
is imported once in a group, with all names that any import asks for.  `importLines` writes the
groups with an empty line between two of them: modules without names first, then those with names,
each in ascending order.  A statement that grows too long is spread over several lines. -/

namespace Preferences.Source

/-- The longest line that an import statement may fill. -/
def maxLineLength : Nat := 99

/-! ### Merging -/

section merge
variable {α β : Type} [DecidableEq α]

/-- The elements with one more, unless it is among them. -/
def insertNew (xs : List α) (x : α) : List α := if x ∈ xs then xs else xs ++ [x]

/-- The entries with the one under a key changed.  Where there is none, it is made from a first
value and stands last. -/
def changeAt (key : α) (first : β) (change : β → β) : List (α × β) → List (α × β)
  | [] => [(key, change first)]
  | entry :: rest =>
    if entry.1 = key then (key, change entry.2) :: rest
    else entry :: changeAt key first change rest

end merge

/-- The modules that are imported, each with the names that are imported from it. -/
abbrev Modules := List (Value × List String)

/-- The imports by their groups, and those of a group by their modules. -/
def merge (imports : List Import) : List (Int × Modules) :=
  imports.foldl (fun merged i =>
    changeAt i.group [] (changeAt i.module [] (i.names.foldl insertNew ·)) merged) []

/-- The imports of one group. -/
def modulesOf (imports : List Import) (group : Int) : Modules :=
  ((merge imports).lookup group).getD []

/-! ### Statements -/

/-- The texts in ascending order. -/
def ascending (texts : List String) : List String := texts.mergeSort fun a b => decide (a ≤ b)

/-- The groups of the imports, lowest first. -/
def groups (imports : List Import) : List Int :=
  ((merge imports).map Prod.fst).mergeSort fun a b => decide (a ≤ b)

/-- The modules that are imported in a group. -/
def modulesIn (imports : List Import) (group : Int) : List Value :=
  (modulesOf imports group).map Prod.fst

/-- The names that are imported from a module in a group, in ascending order. -/
def namesFrom (imports : List Import) (group : Int) (module : Value) : List String :=
  ascending (((modulesOf imports group).lookup module).getD [])

/-- The statement that imports names from a module. -/
def fromImport (module : String) (names : List String) : List String :=
  let line := "from " ++ module ++ " import " ++ ", ".intercalate names
  if line.length ≤ maxLineLength then [line]
  else ("from " ++ module ++ " import (") :: (names.map fun name => "    " ++ name ++ ",") ++ [")"]

def groupLines (imports : List Import) (group : Int) : List String :=
  let modules := (modulesIn imports group).map fun module =>
    (module.plain, namesFrom imports group module)
  let ordered := modules.mergeSort fun a b => decide (a.1 ≤ b.1)
  ((ordered.filter (·.2.isEmpty)).map fun m => "import " ++ m.1)
    ++ (ordered.filter (!·.2.isEmpty)).flatMap fun m => fromImport m.1 m.2

def importLines (imports : List Import) : List String :=
  List.intercalate [""] ((groups imports).map (groupLines imports))

end Preferences.Source

import Preferences.Source.ImportLines

/-! # The text of generated classes

`ClassDef.lines` lays out a class: its fields as one block, each method and each nested class as a
block of its own, and an empty line between two blocks.  `moduleText` puts a comment and the imports
in front of the classes. -/

namespace Preferences

open Source

/-- The line, four spaces further in; an empty line stays empty. -/
def indentLine (line : String) : String := if line == "" then "" else "    " ++ line

def FieldDef.line (f : FieldDef) : String :=
  let type := if f.isStatic then "ClassVar[" ++ f.type ++ "]" else f.type
  f.name ++ ": " ++ type ++ (f.initializer.map (" = " ++ ·)).getD ""

/-- A documentation string as a line. -/
def docLine (docstring : String) : String := "\"\"\"" ++ docstring ++ "\"\"\""

def MethodDef.lines (m : MethodDef) : List String :=
  let parameters := (if m.isStatic then [] else ["self"])
    ++ m.parameters.map fun p => p.name ++ ": " ++ p.type
  let body := if m.body.isEmpty then ["pass"] else m.body
  (if m.isStatic then ["@staticmethod"] else [])
    ++ ["def " ++ m.name.plain ++ "(" ++ ", ".intercalate parameters ++ ") -> " ++ m.returns ++ ":"]
    ++ (if m.docstring == "" then [] else ["    " ++ docLine m.docstring])
    ++ body.map ("    " ++ ·)

def ClassDef.headLine (c : ClassDef) : String :=
  let bases := ", ".intercalate (c.bases.map (·.name))
  "class " ++ c.name.plain ++ (if bases == "" then "" else "(" ++ bases ++ ")") ++ ":"

/-- The blocks of a class before its nested classes. -/
def ClassDef.ownBlocks (c : ClassDef) : List (List String) :=
  (if c.docstring == "" then [] else [[docLine c.docstring]])
    ++ (if c.fields.isEmpty then [] else [c.fields.map FieldDef.line])
    ++ c.methods.map MethodDef.lines

/-- The lines of a class from its first line and its blocks. -/
def layOut (headLine : String) (blocks : List (List String)) : List String :=
  let blocks := if blocks.isEmpty then [["pass"]] else blocks
  headLine :: List.intercalate [""] (blocks.map fun block => block.map indentLine)

mutual

def ClassDef.lines : ClassDef → List String
  | ⟨name, fields, methods, types, superclass, interfaces, docstring, imports⟩ =>
    let c : ClassDef := ⟨name, fields, methods, [], superclass, interfaces, docstring, imports⟩
    layOut c.headLine (c.ownBlocks ++ ClassDef.blocks types)
termination_by structural c => c

/-- The lines of each of the classes. -/
def ClassDef.blocks : List ClassDef → List (List String)
  | [] => []
  | c :: rest => c.lines :: ClassDef.blocks rest
termination_by structural cs => cs

end

def moduleLines (header : String) (classes : List ClassDef) : List String :=
  let imports := importLines (classes.flatMap (·.imports))
  ["# " ++ header, "", "from __future__ import annotations"]
    ++ (if imports.isEmpty then [] else "" :: imports)
    ++ classes.flatMap fun c => "" :: "" :: c.lines

def moduleText (header : String) (classes : List ClassDef) : String :=
  "\n".intercalate (moduleLines header classes) ++ "\n"

mutual

/-- The names that a class is written with. -/
def ClassDef.names : ClassDef → List Value
  | ⟨name, _, methods, types, _, _, _, _⟩ =>
    name :: (methods.map (·.name) ++ ClassDef.namesIn types)
termination_by structural c => c

/-- The names that each of the classes is written with. -/
def ClassDef.namesIn : List ClassDef → List Value
  | [] => []
  | c :: rest => c.names ++ ClassDef.namesIn rest
termination_by structural cs => cs

end

/-- The text of a module, unless an import names a module that cannot be looked up or something in
it cannot be written. -/
def renderModule (header : Value) (classes : List ClassDef) : Except Misuse String := do
  Value.requireWritable [header]
  let modules := (classes.flatMap (·.imports)).map (·.module)
  if !modules.all (·.isKey) then throw .notKey
  Value.requireWritable (modules ++ ClassDef.namesIn classes)
  return moduleText header.plain classes

end Preferences

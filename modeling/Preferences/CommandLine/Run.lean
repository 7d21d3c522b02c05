import Preferences.CommandLine.Invocation
import Preferences.Description.File
import Preferences.Report
import Preferences.Settings.Files
import Preferences.Source.Layout

/-! # Running a command

`Invocation.run` carries out a command in a workspace.  `generate` writes the module of all classes
that could be generated, and nothing if there are none; `types` writes a line for each type.  What
is wrong with the files is logged, and the exit code is then one; failures that have no words end
the run. -/

namespace Preferences.CommandLine

/-! ### The log -/

/-- How important an entry of the log is. -/
inductive Level
  | debug
  | error
  deriving DecidableEq, Repr

def Level.name : Level → String
  | debug => "DEBUG"
  | error => "ERROR"

structure Entry where
  level : Level
  text : String

def Entry.line (e : Entry) : String := e.level.name ++ ": " ++ e.text ++ "\n"

/-- An entry that is only of interest when something is looked for. -/
def debug (text : String) : Entry := ⟨.debug, text⟩

/-- An entry that tells of an error. -/
def error (text : String) : Entry := ⟨.error, text⟩

/-- What a command leaves: its exit code, what it has written, and what it has logged. -/
structure Outcome where
  code : Nat := 0
  output : String := ""
  log : List Entry := []

/-- The lines of the log; only errors are shown unless all is asked for. -/
def Outcome.messages (o : Outcome) (verbose : Bool) : String :=
  String.join ((o.log.filter fun e => verbose || e.level = .error).map Entry.line)

/-- The outcome of a run that a failure has stopped, if the failure has words. -/
def stopped (log : List Entry) (failure : Failure) : Except Failure Outcome :=
  match failure.message? with
  | some message => .ok { code := 1, log := log ++ [error message] }
  | none => .error failure

/-! ### Settings -/

/-- The file of the settings: the given one, or the nearest to a directory. -/
def settingsFile (w : Workspace) (near : Path) : Option String → Except Failure (Option Path)
  | some file => .ok (some (Path.ofText file))
  | none => Settings.find w near

/-- The settings in a file, if there is one. -/
def settingsIn (w : Workspace) : Option Path → Except Failure Settings
  | some file => Settings.load w file
  | none => .ok {}

/-- What is logged when settings are read. -/
def settingsLog (w : Workspace) : Option Path → List Entry
  | some file =>
    match w.find file with
    | .ok none => [debug ("No config at " ++ file.text ++ ", using defaults")]
    | _ => []
  | none => []

/-! ### The command `generate` -/

/-- The settings with another style, if one is given. -/
def withStyle (style : Option Naming.Style) (settings : Settings) : Settings :=
  { settings with style := style.getD settings.style }

/-- The settings and the declarations that are asked for. -/
def declarationsFor (w : Workspace) (request : GenerateRequest) (file : Option Path) :
    Except Failure (Settings × List Declaration) := do
  let settings := withStyle request.style (← settingsIn w file)
  return (settings, ← Description.load w settings (Path.ofText request.description))

/-- The declarations of a class, or all of them if no class is named. -/
def select (className : Option String) (declarations : List Declaration) : List Declaration :=
  match className with
  | some name => declarations.filter fun d => d.name.same (.text name)
  | none => declarations

/-- What is logged about the accessors of a declaration. -/
def accessorLog (d : Declaration) : List Entry :=
  d.preferences.map fun p => debug ("Generated accessors for preference " ++ p.name.plain)

/-- What is logged when a declaration is generated. -/
def generationLog (g : Generator) (d : Declaration) : List Entry :=
  match g.generate d with
  | .ok c =>
    accessorLog d ++ [debug ("Generated " ++ d.name.plain ++ " from " ++ d.source.text
      ++ " (" ++ toString c.methods.length ++ " methods)")]
  | .error (.rejected rejection) =>
    (match rejection.reason with
      | .repeatedMethod .. => accessorLog d
      | _ => []) ++ [error rejection.message]
  | .error _ => []

/-- Generates declarations and writes the module of their classes. -/
def writeModule (settings : Settings) (declarations : List Declaration) (log : List Entry) :
    Except Failure Outcome := do
  let g ← Generator.ofSettings settings
  let report ← g.generateAll declarations
  let output ←
    if report.types.isEmpty then pure "" else renderModule settings.header report.types
  let log := log ++ declarations.flatMap (generationLog g)
  if report.ok then return { output, log }
  else
    let failed := toString report.errors.length ++ " of " ++ toString declarations.length
    return { code := 1, output, log := log ++ [error (failed ++ " classes failed")] }

/-- Carries out the command `generate`. -/
def generate (w : Workspace) (request : GenerateRequest) : Except Failure Outcome :=
  let description := Path.ofText request.description
  match settingsFile w description.parent request.settings with
  | .error failure => stopped [] failure
  | .ok file =>
    match declarationsFor w request file with
    | .error failure => stopped (settingsLog w file) failure
    | .ok (settings, declarations) =>
      let log := settingsLog w file
        ++ [debug ("Parsed " ++ toString declarations.length ++ " preference classes")]
      let selected := select request.className declarations
      match request.className with
      | some name =>
        if selected.isEmpty then
          let missing := "No class named " ++ name ++ " in " ++ description.text
          .ok { code := 1, log := log ++ [error missing] }
        else writeModule settings selected log
      | none => writeModule settings selected log

/-! ### The command `types` -/

def typeLine (valueType : String) (method : StorageMethod) : Except Misuse String := do
  Value.requireWritable [method.get, method.put, method.default]
  return valueType ++ ": " ++ method.get.plain ++ "/" ++ method.put.plain
    ++ " (default " ++ method.default.plain ++ ")\n"

/-- The lines for all types of a table. -/
def typeLines (table : StorageTable) : Except Misuse String := do
  let lines ← table.supportedTypes.mapM fun valueType =>
    match table.resolve? valueType with
    | some method => typeLine valueType method
    | none => .ok ""
  return String.join lines

/-- Carries out the command `types`. -/
def types (w : Workspace) (settings : Option String) : Except Failure Outcome :=
  match settingsFile w w.directory settings with
  | .error failure => stopped [] failure
  | .ok file =>
    match settingsIn w file with
    | .error failure => stopped (settingsLog w file) failure
    | .ok settings => do
      return { output := ← typeLines (← settings.storageTable), log := settingsLog w file }

/-! ### The program -/

/-- How the program is used. -/
def usage : String :=
  "usage: preferencer [-h] [--version] [--verbose] \x7bgenerate,types\x7d ...\n\n"
    ++ "Generate typed preference accessor classes\n\n"
    ++ "  generate [--config CONFIG] [--naming \x7bcamel,snake\x7d] [--class CLASS] model\n"
    ++ "                   generate accessor classes\n"
    ++ "  types [--config CONFIG]\n"
    ++ "                   list supported value types\n"

/-- The exit code after the reading of a command line has ended the run. -/
def Stop.code : Stop → Nat
  | help | version => 0
  | mistake => 2

/-- What is written when the reading of a command line ends the run. -/
def Stop.output : Stop → String
  | help => usage
  | version => "preferencer 0.1.0\n"
  | mistake => ""

/-- Carries out what a command line asks for. -/
def Invocation.run (i : Invocation) (w : Workspace) : Except Failure Outcome :=
  match i.command with
  | none => .ok { output := usage }
  | some (.generate request) => generate w request
  | some (.types settings) => types w settings

end Preferences.CommandLine

import Preferences.CommandLine.Words
import Preferences.Naming.Style

/-! # Invocations

`Invocation.ofWords` reads what a command line asks for: nothing, the command `generate` with the
file of a description, or the command `types`.  What stands in front of the command belongs to the
program, everything behind it to the command.  The words are taken in order, so a request for help
or for the version counts if no mistake comes before it; words and switches left over are a mistake
at the end. -/

namespace Preferences.CommandLine

/-- What the reading of a command line can end with. -/
inductive Stop
  /-- Help is asked for. -/
  | help
  /-- The version is asked for. -/
  | version
  /-- The command line makes no sense. -/
  | mistake
  deriving DecidableEq, Repr

/-- What the command `generate` is asked for: the file of the description, and unless they are left
out the file of the settings, the naming style and the name of the only class to generate. -/
structure GenerateRequest where
  description : String
  settings : Option String := none
  style : Option Naming.Style := none
  className : Option String := none

inductive Command
  /-- Generate classes. -/
  | generate (request : GenerateRequest)
  /-- List the types of a store, by the settings in a file if one is given. -/
  | types (settings : Option String)

/-- What a command line asks for. -/
structure Invocation where
  verbose : Bool := false
  command : Option Command := none

/-! ### Switches -/

def helpSwitch : Switch := ⟨["--help", "-h"], false⟩

/-- The switches of the program. -/
def programSwitches : List Switch :=
  [helpSwitch, ⟨["--version"], false⟩, ⟨["--verbose", "-v"], false⟩]

/-- The switch that names the file of the settings. -/
def configSwitch : Switch := ⟨["--config", "-c"], true⟩

/-- The switches of the command `generate`. -/
def generateSwitches : List Switch :=
  [helpSwitch, configSwitch, ⟨["--naming"], true⟩, ⟨["--class"], true⟩]

/-- The switches of the command `types`. -/
def typesSwitches : List Switch := [helpSwitch, configSwitch]

/-- What a switch sets; the value `--` takes back what was set before. -/
def Given.setting (given : Given) : Option String := given.value.filter (· != "--")

/-! ### Commands -/

/-- How far the words of a command have been read. -/
structure Reading where
  argument : Option String := none
  settings : Option String := none
  style : Option Naming.Style := none
  className : Option String := none
  isLeftOver : Bool := false

namespace Reading

/-- Takes a switch; it holds in place of the same switch before it. -/
def give (r : Reading) (given : Given) : Except Stop Reading :=
  match given.switch.name, given.setting with
  | "--config", value => .ok { r with settings := value }
  | "--class", value => .ok { r with className := value }
  | "--naming", none => .ok { r with style := none }
  | "--naming", some value =>
    match Naming.Style.ofName? value with
    | some style => .ok { r with style := some style }
    | none => .error .mistake
  | _, _ => .error .help

/-- Takes the pieces of a command that may have an argument; a marker may stand on either side of
the argument. -/
def take (hasArgument : Bool) (r : Reading) : List Piece → Except Stop Reading
  | [] => .ok r
  | .given switches :: rest => do (← switches.foldlM give r).take hasArgument rest
  | .plain word _ :: rest =>
    if hasArgument && r.argument.isNone then
      let r := { r with argument := some word }
      match rest with
      | .marker :: rest => r.take hasArgument rest
      | rest => r.take hasArgument rest
    else { r with isLeftOver := true }.take hasArgument rest
  | .marker :: rest =>
    if hasArgument && r.argument.isNone then r.take hasArgument rest
    else { r with isLeftOver := true }.take hasArgument rest
  | .unknown :: rest => { r with isLeftOver := true }.take hasArgument rest
  | .broken :: _ => .error .mistake

/-- Reads the words of a command. -/
def ofWords (switches : List Switch) (hasArgument : Bool) (words : List String) :
    Except Stop Reading :=
  match pieces? switches words with
  | some pieces => take hasArgument {} pieces
  | none => .error .mistake

end Reading

/-- A word that says something; the empty one does not. -/
def meaningful (word : Option String) : Option String := word.filter (· != "")

/-- Reads a command from its name and its words; tells also whether anything is left over. -/
def Command.ofWords (name : String) (words : List String) : Except Stop (Command × Bool) :=
  match name with
  | "generate" => do
    let r ← Reading.ofWords generateSwitches true words
    let some description := r.argument | throw .mistake
    return (.generate { description, settings := meaningful r.settings, style := r.style,
                        className := meaningful r.className }, r.isLeftOver)
  | "types" => do
    let r ← Reading.ofWords typesSwitches false words
    return (.types (meaningful r.settings), r.isLeftOver)
  | _ => .error .mistake

namespace Invocation

/-- Takes a switch of the program. -/
def give (i : Invocation) (given : Given) : Except Stop Invocation :=
  match given.switch.name with
  | "--verbose" => .ok { i with verbose := true }
  | "--version" => .error .version
  | _ => .error .help

/-- Takes the pieces of a command line. -/
def take (i : Invocation) (isLeftOver : Bool) : List Piece → Except Stop Invocation
  | [] => if isLeftOver then .error .mistake else .ok i
  | .given switches :: rest => do (← switches.foldlM give i).take isLeftOver rest
  | .plain name behind :: _ => do
    let (command, isMoreLeftOver) ← Command.ofWords name behind
    if isLeftOver || isMoreLeftOver then throw .mistake
    return { i with command := some command }
  | .unknown :: rest => i.take true rest
  | .marker :: _ | .broken :: _ => .error .mistake

/-- Reads a command line. -/
def ofWords (words : List String) : Except Stop Invocation :=
  match pieces? programSwitches words with
  | some pieces => take {} false pieces
  | none => .error .mistake

end Invocation

end Preferences.CommandLine

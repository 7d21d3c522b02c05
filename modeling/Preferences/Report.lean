import Preferences.Generator

/-! # Generating several classes

`Generator.generateAll` generates each declaration of a list.  A rejected declaration becomes a
diagnostic of the `Report` and does not stop the others. -/

namespace Preferences

/-- How serious a diagnostic is. -/
inductive Severity
  | error
  | warning
  deriving DecidableEq, Repr

namespace Severity

/-- The word for a severity. -/
def name : Severity → String
  | error => "error"
  | warning => "warning"

/-- The severity that a word names. -/
def ofName? (word : String) : Option Severity := [error, warning].find? (·.name == word)

end Severity

/-- A problem with one class. -/
structure Diagnostic where
  message : String
  className : Value
  severity : Severity := .error
  location : Option Location := none

/-- The diagnostic as text. -/
def Diagnostic.text (d : Diagnostic) : String := d.severity.name ++ ": " ++ d.message

/-- What came out of generating a list of declarations. -/
structure Report where
  types : List ClassDef := []
  diagnostics : List Diagnostic := []

namespace Report

def errors (r : Report) : List Diagnostic := r.diagnostics.filter (·.severity = .error)

/-- Whether there is no error. -/
def ok (r : Report) : Bool := r.errors.isEmpty

def addType (r : Report) (c : ClassDef) : Report := { r with types := r.types ++ [c] }

def addDiagnostic (r : Report) (d : Diagnostic) : Report :=
  { r with diagnostics := r.diagnostics ++ [d] }

/-- The report that goes on with another one. -/
def append (r s : Report) : Report := ⟨r.types ++ s.types, r.diagnostics ++ s.diagnostics⟩

end Report

def Rejection.diagnostic (r : Rejection) (d : Declaration) : Diagnostic :=
  { message := r.message, className := d.name, location := r.location }

namespace Generator

/-- The report with the outcome of one more declaration. -/
def addTo (g : Generator) (r : Report) (d : Declaration) : Except Failure Report :=
  match g.generate d with
  | .ok c => .ok (r.addType c)
  | .error (.rejected rejection) => .ok (r.addDiagnostic (rejection.diagnostic d))
  | .error failure => .error failure

def generateAll (g : Generator) (declarations : List Declaration) : Except Failure Report :=
  declarations.foldlM g.addTo {}

end Generator

end Preferences

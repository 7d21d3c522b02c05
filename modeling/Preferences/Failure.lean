import Preferences.Naming.Style
import Preferences.Rejection

/-! # What can go wrong

A `Failure` is what stops a run: a rejected declaration, a setting that makes no sense, a missing
file, a file that cannot be read as text, or a value used where it does not fit.  The first three
are reported to the user in the words of `Failure.message?`; the others are not expected, and have
no words.  What is reported is built by `Failure.ofRejection` and `Failure.ofSetting`, which see to
it that it can be written. -/

namespace Preferences

/-- Why a setting does not give the storage method of a type. -/
inductive MethodFault
  /-- An entry of the table is missing. -/
  | missing (entry : String)
  /-- The setting is no table. -/
  | notTable (setting : Value)

/-- The fault in words. -/
def MethodFault.message : MethodFault → String
  | missing entry => (Value.text entry).source
  | notTable (.text _) => "string indices must be integers, not 'str'"
  | notTable (.list _) => "list indices must be integers or slices, not str"
  | notTable v =>
    let kind :=
      match v with
      | .date _ | .time _ | .datetime _ => "datetime." ++ v.kindName
      | _ => v.kindName
    "'" ++ kind ++ "' object is not subscriptable"

/-- Why settings cannot be used. -/
inductive SettingFault
  /-- The document is not well-formed. -/
  | malformedDocument
  /-- The value is no naming style. -/
  | unknownStyle (value : Value)
  /-- The setting for a type is no storage method. -/
  | badMethod (valueType : Value) (fault : MethodFault)

/-- The fault in words. -/
def SettingFault.message : SettingFault → String
  | malformedDocument => "Invalid TOML"
  | unknownStyle value => "Unknown naming style " ++ value.source
  | badMethod valueType fault =>
    "Invalid storage method for type " ++ valueType.source ++ ": " ++ fault.message

/-- The values that the fault is worded with. -/
def SettingFault.values : SettingFault → List Value
  | malformedDocument => []
  | unknownStyle value => [value]
  | badMethod valueType _ => [valueType]

/-- Why a file is not available. -/
inductive FileFault
  /-- The path, or a name in it, is too long. -/
  | nameTooLong
  /-- A name holds the null character. -/
  | nullInName
  /-- There is a directory in its place. -/
  | isDirectory
  /-- The content is not text. -/
  | notText
  /-- The content holds a number with too many digits. -/
  | numberTooLong
  /-- The content holds values that stand too deep within each other. -/
  | tooDeep
  deriving DecidableEq, Repr

/-- What stops a run. -/
inductive Failure
  /-- A declaration is rejected. -/
  | rejected (rejection : Rejection)
  /-- A setting of the file, if it is known, makes no sense. -/
  | setting (fault : SettingFault) (path : Option Path)
  /-- There is no such file. -/
  | missingFile (path : Path)
  /-- The file cannot be read. -/
  | unreadable (fault : FileFault)
  /-- No style has this name. -/
  | unknownStyle (name : Value)
  /-- A value is used where its kind does not fit. -/
  | misused (misuse : Misuse)

/-- The failure in words, if it is one that users are told about. -/
def Failure.message? : Failure → Option String
  | rejected r => some r.message
  | setting fault path => some (((path.map fun p => p.text ++ ": ").getD "") ++ fault.message)
  | missingFile path => some ("File not found: " ++ path.text)
  | unreadable _ | unknownStyle _ | misused _ => none

/-- The failure that a rejection is; if it cannot be written, that is the failure. -/
def Failure.ofRejection (r : Rejection) : Failure :=
  if r.values.all Value.isWritable then .rejected r else .misused .unwritable

/-- The failure that a fault of a setting is; if it cannot be written, that is the failure. -/
def Failure.ofSetting (fault : SettingFault) (path : Option Path) : Failure :=
  if fault.values.all Value.isWritable then .setting fault path else .misused .unwritable

/-- The failures of looking into a value are failures of the run. -/
instance : MonadLift (Except Misuse) (Except Failure) := ⟨fun x => x.mapError Failure.misused⟩

end Preferences

import Preferences.Members.Names
import Preferences.Source.ClassDef
import Preferences.Value.Text

/-! # How instances come about

The fields of a generated class, the method that returns its only instance, the constructor and the
method that clears the store. -/

namespace Preferences.Members

def classFields (owner : String) : List FieldDef :=
  [{ name := instanceField, type := owner ++ " | None", isStatic := true
     initializer := some "None" },
    { name := lockField, type := "threading.Lock", isStatic := true
      initializer := some "threading.Lock()" },
    { name := storeField, type := "Store" },
    { name := transactionField, type := owner ++ "." ++ transactionClass ++ " | None"
      initializer := some "None" }]

/-- The method that returns the only instance and makes it first if need be. -/
def getInstance (owner : String) : MethodDef :=
  let only := owner ++ "." ++ instanceField
  { name := "get_instance", kind := .getInstance
    parameters := [⟨contextVariable, contextType⟩]
    body := ["if " ++ only ++ " is None:",
      "    with " ++ owner ++ "." ++ lockField ++ ":",
      "        if " ++ only ++ " is None:",
      "            " ++ only ++ " = " ++ owner ++ "(" ++ contextVariable ++ ")",
      "return " ++ only]
    returns := owner, isStatic := true
    docstring := "Return the process-wide instance, creating it on first use." }

/-- The expression that acquires the store. -/
def storeExpression : StoreChoice → String
  | .default => "get_default_store(" ++ contextVariable ++ ")"
  | .named name _ => contextVariable ++ ".get_store(" ++ name.literal ++ ")"

/-- The line that calls the method after construction, if there is one. -/
def hookLines : Option Hook → List String
  | none => []
  | some hook =>
    ["self." ++ hook.method.plain ++ "(" ++ (if hook.takesContext then contextVariable else "")
      ++ ")"]

/-- The constructor: the context is checked first and the hook is called last. -/
def constructor (d : Declaration) : MethodDef where
  name := "__init__"
  kind := .constructor
  parameters := [⟨contextVariable, contextType⟩]
  body := ["if " ++ contextVariable ++ " is None:",
    "    raise MissingContextError(" ++ Value.literal "Context must not be None" ++ ")",
    "super().__init__()",
    "self." ++ storeField ++ " = " ++ storeExpression d.store]
    ++ hookLines d.hook

/-- The method that removes everything from the store. -/
def clear : MethodDef where
  name := "clear"
  kind := .clear
  body := ["self." ++ storeField ++ ".edit().clear().apply()"]
  docstring := "Remove every stored preference."

end Preferences.Members

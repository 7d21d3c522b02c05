import Preferences.Members.Names
import Preferences.Source.ClassDef

/-! # Transactions

The nested class whose instances collect edits until they are committed, and the method that opens a
transaction.  A transaction that ends detaches itself from its instance, unless another one has
taken its place by then. -/

namespace Preferences.Members

/-- The lines that detach a transaction from its instance. -/
def releaseLines : List String :=
  ["if self." ++ ownerField ++ "." ++ transactionField ++ " is self:",
    "    self." ++ ownerField ++ "." ++ transactionField ++ " = None"]

def transactionType (owner : String) : String := owner ++ "." ++ transactionClass

/-- The constructor of a transaction, which opens its editor. -/
def transactionConstructor (owner : String) : MethodDef where
  name := "__init__"
  kind := .constructor
  parameters := [⟨"owner", owner⟩]
  body := ["self." ++ ownerField ++ " = owner",
    "self." ++ editorField ++ " = owner." ++ storeField ++ ".edit()"]
  visibility := .owner

/-- The method that applies the edits. -/
def commit : MethodDef where
  name := "commit"
  kind := .commit
  body := ("self." ++ editorField ++ ".apply()") :: releaseLines
  docstring := "Apply every edit made while this transaction was open."

/-- The method that drops the edits. -/
def rollback : MethodDef where
  name := "rollback"
  kind := .rollback
  body := releaseLines
  docstring := "Discard the edits made while this transaction was open."

/-- The method that starts a block with the transaction. -/
def enter (owner : String) : MethodDef where
  name := "__enter__"
  kind := .enter
  body := ["return self"]
  returns := transactionType owner

/-- The method that ends a block: it commits unless the block has failed. -/
def leave : MethodDef where
  name := "__exit__"
  kind := .leave
  parameters := [⟨"exc_type", "type[BaseException] | None"⟩, ⟨"exc", "BaseException | None"⟩,
    ⟨"tb", "TracebackType | None"⟩]
  body := ["if exc_type is None:", "    self.commit()", "else:", "    self.rollback()"]

/-- The nested class of transactions. -/
def transaction (owner : String) : ClassDef where
  name := transactionClass
  fields := [{ name := editorField, type := "Editor" }, { name := ownerField, type := owner }]
  methods := [transactionConstructor owner, commit, rollback, enter owner, leave]
  docstring := "Batch of edits applied together on commit."

/-- The method that opens a transaction in place of an open one. -/
def beginTransaction (owner : String) : MethodDef where
  name := "begin_transaction"
  kind := .beginTransaction
  body := ["self." ++ transactionField ++ " = " ++ transactionType owner ++ "(self)",
    "return self." ++ transactionField]
  returns := transactionType owner

end Preferences.Members

/-! # Fixed names in generated classes

The names of the members and variables that every generated class has. -/

namespace Preferences.Members

/-- The field that holds the only instance. -/
def instanceField : String := "_instance"

/-- The field that holds the lock around the creation of the instance. -/
def lockField : String := "_lock"

def storeField : String := "_store"

/-- The field that holds the open transaction. -/
def transactionField : String := "_current_transaction"

/-- The field of a transaction that holds its editor. -/
def editorField : String := "editor"

/-- The field of a transaction that holds the instance it belongs to. -/
def ownerField : String := "_owner"

def contextVariable : String := "context"

def editorVariable : String := "editor"

/-- The variable that holds the open transaction. -/
def transactionVariable : String := "transaction"

/-- The nested class of transactions. -/
def transactionClass : String := "Transaction"

def contextType : String := "StoreContext"

end Preferences.Members

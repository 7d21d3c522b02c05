import Preferences.Description
import Preferences.Workspace

/-! # Descriptions in files

`Description.load` reads the declarations of the document in a file.  A file that is not there and a
document that is not well-formed are told apart from what is wrong inside a document. -/

namespace Preferences.Description

/-- The declarations that the document at a path describes. -/
def load (w : Workspace) (settings : Settings) (p : Path) : Except Failure (List Declaration) := do
  let malformed := Failure.ofRejection ⟨.malformedDocument, some ⟨some p, .null⟩⟩
  declarations settings (some p) (← w.document malformed p)

end Preferences.Description

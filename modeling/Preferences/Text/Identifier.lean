import Preferences.Text.IdentifierTable

/-! # Identifiers and keywords

A name is an identifier if it starts with a letter or an underscore and goes on with letters,
digits, marks and underscores, in the sense of Unicode.  The keywords are identifiers that the
language keeps for itself. -/

namespace Preferences.Text

/-- Whether an identifier may start with the character. -/
def startsIdentifier (c : Char) : Bool := c == '_' || identifierStarts.has c

/-- Whether an identifier may go on with the character. -/
def continuesIdentifier (c : Char) : Bool := identifierParts.has c

def isIdentifier : List Char → Bool
  | [] => false
  | c :: rest => startsIdentifier c && rest.all continuesIdentifier

/-- The words that cannot be used as names. -/
def keywords : List String :=
  ["False", "None", "True", "and", "as", "assert", "async", "await", "break", "class", "continue",
    "def", "del", "elif", "else", "except", "finally", "for", "from", "global", "if", "import",
    "in", "is", "lambda", "nonlocal", "not", "or", "pass", "raise", "return", "try", "while",
    "with", "yield"]

def isKeyword (s : List Char) : Bool := keywords.any (·.toList == s)

end Preferences.Text

/-! # Characters of a TOML document

The classes of characters of TOML 1.0, the line ending, and what may stand between the parts of a
document: spaces, comments, and within an array line breaks too. -/

namespace Preferences.Toml

/-- A space or a tab. -/
def isSpace (c : Char) : Bool := c == ' ' || c == '\t'

/-- A control character that may not stand in a comment or a text, other than a line break. -/
def isControl (c : Char) : Bool := c.toNat < 32 && c != '\t' && c != '\n' || c.toNat == 127

/-- A character of a key without quotation marks. -/
def isBare (c : Char) : Bool :=
  'a' ≤ c && c ≤ 'z' || 'A' ≤ c && c ≤ 'Z' || '0' ≤ c && c ≤ '9' || c == '-' || c == '_'

/-- The characters of a document with every line ending as one line feed. -/
def plainLines : List Char → List Char
  | '\r' :: '\n' :: rest => '\n' :: plainLines rest
  | c :: rest => c :: plainLines rest
  | [] => []

/-- What stands behind spaces. -/
def skipSpaces (s : List Char) : List Char := s.dropWhile isSpace

/-- The line break, or the end, behind what is left of a comment. -/
def endOfComment? : List Char → Option (List Char)
  | [] => some []
  | c :: rest =>
    if c == '\n' then some (c :: rest) else if isControl c then none else endOfComment? rest

/-- What stands behind a comment, if there is one. -/
def skipComment? : List Char → Option (List Char)
  | '#' :: rest => endOfComment? rest
  | s => some s

/-- What stands behind spaces, line breaks and comments. -/
def skipBlanks? : (inComment : Bool) → List Char → Option (List Char)
  | _, [] => some []
  | false, c :: rest =>
    if isSpace c || c == '\n' then skipBlanks? false rest
    else if c == '#' then skipBlanks? true rest
    else some (c :: rest)
  | true, c :: rest =>
    if c == '\n' then skipBlanks? false rest
    else if isControl c then none
    else skipBlanks? true rest

end Preferences.Toml

import Preferences.Toml.Lexical

/-! # Texts of a TOML document

The four notations of a text: in double or in single quotation marks, on one line or, between three
marks, on several.  Only double marks know escapes.  A reader gives the text together with what
stands behind it, or nothing if the notation is broken. -/

namespace Preferences.Toml

/-- Where the reader of a text in double marks is. -/
inductive Place
  /-- Between characters; after an escaped line break, at its start, blanks do not count. -/
  | between (folding : Bool)
  /-- Behind a backslash. -/
  | escape
  /-- Behind a backslash and spaces, which have to end with the line. -/
  | lineEnd
  /-- In a character code that lacks `missing + 1` digits. -/
  | code (missing value : Nat)

/-- The character that a letter stands for behind a backslash. -/
def escaped? : Char → Option Char
  | 'b' => some '\x08'
  | 't' => some '\t'
  | 'n' => some '\n'
  | 'f' => some '\x0c'
  | 'r' => some '\r'
  | '"' => some '"'
  | '\\' => some '\\'
  | _ => none

def hexValue? (c : Char) : Option Nat :=
  if '0' ≤ c && c ≤ '9' then some (c.toNat - 48)
  else if 'a' ≤ c && c ≤ 'f' then some (c.toNat - 87)
  else if 'A' ≤ c && c ≤ 'F' then some (c.toNat - 55)
  else none

/-- The character of a code. -/
def ofCode? (n : Nat) : Option Char := if n.isValidChar then some (Char.ofNat n) else none

/-- Up to two more marks behind three closing ones, which still belong to the text. -/
def splitMarks (mark : Char) : List Char → List Char × List Char
  | c :: d :: rest =>
    if c != mark then ([], c :: d :: rest)
    else if d != mark then ([c], d :: rest)
    else ([c, d], rest)
  | [c] => if c == mark then ([c], []) else ([], [c])
  | [] => ([], [])

/-- Puts a character in front of a text that has been read. -/
def prepend (c : Char) (read : List Char × List Char) : List Char × List Char :=
  (c :: read.1, read.2)

/-- Reads a text in double marks from behind its opening marks. -/
def readBasic? (multiline : Bool) : Place → List Char → Option (List Char × List Char)
  | _, [] => none
  | .between folding, c :: rest =>
    if folding && (isSpace c || c == '\n') then readBasic? multiline (.between true) rest
    else if c == '\\' then readBasic? multiline .escape rest
    else if c == '"' then
      if !multiline then some ([], rest)
      else if rest.take 2 = ['"', '"'] then some (splitMarks '"' (rest.drop 2))
      else (readBasic? multiline (.between false) rest).map (prepend c)
    else if isControl c || c == '\n' && !multiline then none
    else (readBasic? multiline (.between false) rest).map (prepend c)
  | .escape, c :: rest =>
    match escaped? c with
    | some d => (readBasic? multiline (.between false) rest).map (prepend d)
    | none =>
      if c == 'u' then readBasic? multiline (.code 3 0) rest
      else if c == 'U' then readBasic? multiline (.code 7 0) rest
      else if multiline && c == '\n' then readBasic? multiline (.between true) rest
      else if multiline && isSpace c then readBasic? multiline .lineEnd rest
      else none
  | .lineEnd, c :: rest =>
    if isSpace c then readBasic? multiline .lineEnd rest
    else if c == '\n' then readBasic? multiline (.between true) rest
    else none
  | .code missing value, c :: rest =>
    match hexValue? c, missing with
    | none, _ => none
    | some digit, missing + 1 => readBasic? multiline (.code missing (16 * value + digit)) rest
    | some digit, 0 =>
      match ofCode? (16 * value + digit) with
      | some d => (readBasic? multiline (.between false) rest).map (prepend d)
      | none => none

/-- Reads a text in single marks from behind its opening marks. -/
def readLiteral? (multiline : Bool) : List Char → Option (List Char × List Char)
  | [] => none
  | c :: rest =>
    if c == '\'' && !multiline then some ([], rest)
    else if c == '\'' && rest.take 2 = ['\'', '\''] then some (splitMarks '\'' (rest.drop 2))
    else if isControl c || c == '\n' && !multiline then none
    else (readLiteral? multiline rest).map (prepend c)

/-- What stands behind a line break that opens a text on several lines. -/
def skipBreak : List Char → List Char
  | '\n' :: rest => rest
  | s => s

/-- Reads a text on one line, in either kind of marks. -/
def readLine? : List Char → Option (List Char × List Char)
  | '"' :: rest => readBasic? false (.between false) rest
  | '\'' :: rest => readLiteral? false rest
  | _ => none

/-- Reads a text in any notation. -/
def readText? : List Char → Option (List Char × List Char)
  | '"' :: '"' :: '"' :: rest => readBasic? true (.between false) (skipBreak rest)
  | '\'' :: '\'' :: '\'' :: rest => readLiteral? true (skipBreak rest)
  | s => readLine? s

end Preferences.Toml

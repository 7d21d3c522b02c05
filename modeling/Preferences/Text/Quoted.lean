import Preferences.Text.Printable

/-! # Quoted text

A text is quoted by enclosing it in quotation marks and writing a backslash, the mark in use, line
breaks, tabs and unprintable characters as escapes.  `quote` prefers single marks, as messages show
a text; `literal` prefers double marks, as generated code writes a string, and gets them by putting
them in place of the single ones. -/

namespace Preferences.Text

/-- The small hexadecimal digit of a number below sixteen. -/
def hexDigit (n : Nat) : Char :=
  if n < 10 then Char.ofNat (48 + n) else Char.ofNat (87 + n)

/-- The last `width` hexadecimal digits of a number. -/
def hexDigits : (width n : Nat) → List Char
  | 0, _ => []
  | width + 1, n => hexDigits width (n / 16) ++ [hexDigit (n % 16)]

/-- The shortest escape that gives a code point. -/
def codeEscape (n : Nat) : List Char :=
  if n < 0x100 then '\\' :: 'x' :: hexDigits 2 n
  else if n < 0x10000 then '\\' :: 'u' :: hexDigits 4 n
  else '\\' :: 'U' :: hexDigits 8 n

/-- One character as it stands between the marks. -/
def escapeChar (mark c : Char) : List Char :=
  if c = mark || c = '\\' then ['\\', c]
  else if c = '\n' then ['\\', 'n']
  else if c = '\r' then ['\\', 'r']
  else if c = '\t' then ['\\', 't']
  else if isPrintable c then [c]
  else codeEscape c.toNat

/-- The text between two of the marks. -/
def enclose (mark : Char) (s : List Char) : List Char :=
  mark :: (s.flatMap (escapeChar mark) ++ [mark])

/-- The text in single marks, or in double ones if it holds single marks only. -/
def quote (s : List Char) : List Char :=
  if s.contains '\'' && !s.contains '"' then enclose '"' s else enclose '\'' s

/-- The quoted text, with double marks in place of single ones where it holds no double mark. -/
def literal (s : List Char) : List Char :=
  if (quote s).head? = some '\'' && !s.contains '"' then '"' :: (quote s).tail.dropLast ++ ['"']
  else quote s

end Preferences.Text

import Preferences.Value.Table

/-! # Looking into values

Look-ups that take any value and say what went wrong if its kind does not offer them. -/

namespace Preferences.Value

/-- The entry of a table under a key. -/
def get? (v : Value) (key : String) : Except Misuse (Option Value) :=
  match v with
  | table entries => .ok (Table.get? entries key)
  | _ => .error .notTable

/-- The elements that a walk through the value meets: of a table its keys, of a text its letters. -/
def elements : Value → Except Misuse (List Value)
  | list items | set items | frozenset items => .ok items
  | table entries => .ok (Table.keys entries)
  | text s => .ok (s.toList.map fun c => text c.toString)
  | _ => .error .notIterable

/-- Whether the first list of characters stands somewhere in the second. -/
def occursIn (part : List Char) : List Char → Bool
  | [] => part.isEmpty
  | c :: rest => part.isPrefixOf (c :: rest) || occursIn part rest

/-- Whether the value contains a word: as a key, as an element, or in a text. -/
def contains (v : Value) (word : String) : Except Misuse Bool :=
  match v with
  | table entries => .ok (Table.holds entries word)
  | list items | set items | frozenset items => .ok (items.any (·.same (text word)))
  | text s => .ok (occursIn word.toList s.toList)
  | _ => .error .notContainer

end Preferences.Value

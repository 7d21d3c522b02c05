import Preferences.Value.Same

/-! # Tables

A `Table` holds values under keys, in the order in which the keys came.  Keys that count as the same
are one key: it stays as it was first written, and stays where it was when another value is written
under it.  A key that is removed and written again goes last. -/

namespace Preferences

/-- Values under keys, in the order in which the keys came. -/
abbrev Table := List (Value × Value)

namespace Table

def keys (t : Table) : List Value := t.map Prod.fst

/-- Whether there is a value under a key. -/
def holds (t : Table) (key : Value) : Bool := t.any (·.1.same key)

def get? (t : Table) (key : Value) : Option Value := (t.find? (·.1.same key)).map Prod.snd

def put (key value : Value) : Table → Table
  | [] => [(key, value)]
  | (other, old) :: rest =>
    if other.same key then (other, value) :: rest else (other, old) :: put key value rest

def remove (t : Table) (key : Value) : Table := t.eraseP (·.1.same key)

theorem holds_eq_isSome_get? (t : Table) (key : Value) : t.holds key = (t.get? key).isSome := by
  induction t with
  | nil => rfl
  | cons entry rest ih =>
    by_cases same : entry.1.same key
    · simp [holds, get?, same]
    · simpa [holds, get?, same] using ih

theorem keys_put_of_holds (key value : Value) (t : Table) (h : t.holds key = true) :
    (put key value t).keys = t.keys := by
  induction t with
  | nil => simp [holds] at h
  | cons entry rest ih =>
    by_cases same : entry.1.same key
    · simp [put, keys, same]
    · have : Table.holds rest key = true := by simpa [holds, same] using h
      simpa [put, keys, same] using ih this

theorem put_of_not_holds (key value : Value) (t : Table) (h : t.holds key = false) :
    put key value t = t ++ [(key, value)] := by
  induction t with
  | nil => rfl
  | cons entry rest ih =>
    have : entry.1.same key = false ∧ Table.holds rest key = false := by simpa [holds] using h
    simp [put, this.1, ih this.2]

end Table

end Preferences

import Preferences.Value.Basic

/-! # Values that count as the same

`Value.same` compares by value: a truth value counts as the number zero or one, numbers of different
kinds are the same if their values are, tables and sets do not depend on their order, and two times
with known offsets are the same if they name one moment.  `Value.isKey` tells which values can be
keys of a store or members of a set. -/

namespace Preferences.Value

/-- The number that the value counts as when it is compared, if it counts as one. -/
def asInt? : Value → Option Int
  | bool b => some (if b then 1 else 0)
  | int n => some n
  | _ => none

/-- Whether two values without elements are the same. -/
def sameAtom : Value → Value → Bool
  | null, null => true
  | text s, text t => s == t
  | date d, date e => d == e
  | time t, time u => t == u
  | datetime t, datetime u => t.same u
  | float x, float y => x.same y
  | float x, v => v.asInt?.any x.sameInt
  | v, float y => v.asInt?.any y.sameInt
  | v, w => v.asInt?.isSome && v.asInt? == w.asInt?

mutual

/-- Whether two values count as the same. -/
def same : Value → Value → Bool
  | .list xs, w =>
    match w with
    | .list ys => sameItems xs ys
    | _ => false
  | .table es, w =>
    match w with
    | .table fs => es.length == fs.length && entriesWithin es fs
    | _ => false
  | .set xs, w =>
    match w with
    | .set ys | .frozenset ys => xs.length == ys.length && itemsWithin xs ys
    | _ => false
  | .frozenset xs, w =>
    match w with
    | .set ys | .frozenset ys => xs.length == ys.length && itemsWithin xs ys
    | _ => false
  | v, w => sameAtom v w

def sameItems : List Value → List Value → Bool
  | [], [] => true
  | x :: xs, y :: ys => x.same y && sameItems xs ys
  | _, _ => false

/-- Whether every value of the first list has its like in the second. -/
def itemsWithin : List Value → List Value → Bool
  | [], _ => true
  | x :: xs, ys => ys.any (fun y => x.same y) && itemsWithin xs ys

/-- Whether the second list has the same value under every key of the first. -/
def entriesWithin : List (Value × Value) → List (Value × Value) → Bool
  | [], _ => true
  | (key, x) :: es, fs =>
    fs.any (fun (other, y) => key.same other && x.same y) && entriesWithin es fs

end

/-- Whether the value can be a key. -/
def isKey : Value → Bool
  | list _ | table _ | set _ => false
  | _ => true

/-- The list with each value once, the first of those that are the same. -/
def distinct (values : List Value) : List Value :=
  values.foldl (fun kept v => if kept.any (·.same v) then kept else kept ++ [v]) []

end Preferences.Value

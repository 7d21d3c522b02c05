import Preferences.Value.Table

/-! # Batches of changes

A `Batch` is what an editor has recorded.  `Batch.run` clears the contents first if that was asked
for, whenever it was, and then performs the operations in order.  The keys that it touches are
announced once each: all those that were cleared, and then the others in the order of their first
operation.  An operation whose key cannot be a key ends the run, and what was done before it
stays. -/

namespace Preferences.Store

abbrev Contents := Table

inductive Operation
  | put (key value : Value)
  | remove (key : Value)
  deriving DecidableEq

namespace Operation

def key : Operation → Value
  | put key _ => key
  | remove key => key

/-- Performs the operation; nothing can be looked for in vain where there is nothing. -/
def perform (c : Contents) : Operation → Except Misuse Contents
  | put key value => if key.isKey then .ok (c.put key value) else .error .notKey
  | remove key => if c.isEmpty || key.isKey then .ok (c.remove key) else .error .notKey

end Operation

/-- What an editor has recorded. -/
structure Batch where
  clears : Bool := false
  operations : List Operation := []

/-- How far a batch has come: the contents, the keys to announce, and what ended it, if anything. -/
structure Change where
  contents : Contents
  announced : List Value
  misuse : Option Misuse := none

/-- The keys with one more, unless it is among them. -/
def announce (key : Value) (keys : List Value) : List Value :=
  if keys.any (·.same key) then keys else keys ++ [key]

/-- The change with one more operation performed, unless it has ended. -/
def Change.perform (change : Change) (operation : Operation) : Change :=
  match change.misuse with
  | some _ => change
  | none =>
    match operation.perform change.contents with
    | .ok contents => { contents, announced := announce operation.key change.announced }
    | .error misuse => { change with misuse := some misuse }

namespace Batch

/-- The batch with one more operation. -/
def record (b : Batch) (operation : Operation) : Batch :=
  { b with operations := b.operations ++ [operation] }

/-- The change that the batch begins with. -/
def start (b : Batch) (c : Contents) : Change :=
  if b.clears then { contents := [], announced := c.keys } else { contents := c, announced := [] }

/-- The change that the batch makes to some contents. -/
def run (b : Batch) (c : Contents) : Change := b.operations.foldl Change.perform (b.start c)

theorem run_record (b : Batch) (operation : Operation) (c : Contents) :
    (b.record operation).run c = (b.run c).perform operation := by
  simp only [run, record, List.foldl_append]
  rfl

end Batch

end Preferences.Store

import Preferences.Store.Kind

/-! # Stores and their listeners

`Store.apply` makes the change of a batch and then tells the listeners: every announced key in turn,
and of each key those that are registered when its turn comes, in the order of their registration.
A listener may take itself off the list, raise an error, or write to the store, which tells the
listeners again before the others hear of the first key.  An error ends everything at once.

Listeners that write can answer each other without end.  If no key comes back on the way down, every
write is made by another registration, so `applyWithin` allows one change more than there are
registrations that write; what needs more than that is `Fault.endless`. -/

namespace Preferences

namespace Store

/-- What a listener does when it is told of a key. -/
inductive Reaction
  /-- It takes note. -/
  | log
  /-- It takes itself off the list. -/
  | once
  /-- On the trigger, it writes a number under another key. -/
  | put (trigger target number : Value)
  /-- On the trigger, it raises an error. -/
  | raise (trigger : Value)

/-- A listener. -/
structure Listener where
  name : String
  reaction : Reaction

/-- Whether the listener writes to the store. -/
def Listener.writes (l : Listener) : Bool :=
  match l.reaction with
  | .put .. => true
  | _ => false

/-- A call of a listener: who was told of which key, and whether the store held it. -/
structure Event where
  listener : String
  key : Value
  held : Bool

end Store

/-- A store: its contents and its listeners, in the order of their registration. -/
structure Store where
  contents : Store.Contents := []
  listeners : List Store.Listener := []

namespace Store

/-- The course of a change: the store as it is now, the calls so far, and the fault that ended
it. -/
structure Course where
  store : Store
  events : List Event := []
  fault : Option Fault := none

namespace Course

/-- The course that has ended with a fault. -/
def failed (s : Store) (fault : Fault) : Course := { store := s, fault := some fault }

/-- Goes on with what comes next, unless the course has ended. -/
def andThen (c : Course) (next : Store → Course) : Course :=
  match c.fault with
  | some _ => c
  | none => { next c.store with events := c.events ++ (next c.store).events }

/-- Does something for each item in turn, until the course ends. -/
def forEach {α : Type} (act : α → Store → Course) (items : List α) (s : Store) : Course :=
  items.foldl (fun c item => c.andThen (act item)) { store := s }

end Course

/-- Takes the first registration of a listener off the list. -/
def unregister (name : String) (s : Store) : Except Fault Store :=
  if s.listeners.any (·.name == name) then
    .ok { s with listeners := s.listeners.eraseP (·.name == name) }
  else .error .notRegistered

def register (l : Listener) (s : Store) : Store := { s with listeners := s.listeners ++ [l] }

/-- What a listener does with the key it is told of; changes are applied by `change`. -/
def react (change : Batch → Store → Course) (l : Listener) (key : Value) (s : Store) : Course :=
  match l.reaction with
  | .log => { store := s }
  | .once =>
    match s.unregister l.name with
    | .ok s => { store := s }
    | .error fault => .failed s fault
  | .put trigger target number =>
    if key.same trigger then
      match Kind.int.write target number with
      | .ok operation => change { operations := [operation] } s
      | .error misuse => .failed s (.misused misuse)
    else { store := s }
  | .raise trigger =>
    if key.same trigger then .failed s (.raised l.name) else { store := s }

/-- Tells a listener of a key. -/
def call (change : Batch → Store → Course) (key : Value) (l : Listener) (s : Store) : Course :=
  if key.isKey then
    Course.andThen { store := s, events := [⟨l.name, key, s.contents.holds key⟩] }
      (react change l key)
  else .failed s (.misused .notKey)

/-- Tells the listeners that are now registered of a key. -/
def tell (change : Batch → Store → Course) (key : Value) (s : Store) : Course :=
  Course.forEach (call change key) s.listeners s

/-- Applies a batch, with no more than a number of changes within each other. -/
def applyWithin : (depth : Nat) → Batch → Store → Course
  | 0, _, s => .failed s .endless
  | depth + 1, b, s =>
    let change := b.run s.contents
    let s := { s with contents := change.contents }
    match change.misuse with
    | some misuse => .failed s (.misused misuse)
    | none => Course.forEach (tell (applyWithin depth)) change.announced s

def apply (b : Batch) (s : Store) : Course :=
  applyWithin ((s.listeners.filter Listener.writes).length + 1) b s

/-- Without listeners a batch only makes its change. -/
theorem apply_of_listeners_eq_nil (b : Batch) (s : Store) (quiet : s.listeners = [])
    (clean : (b.run s.contents).misuse = none) :
    s.apply b = { store := { s with contents := (b.run s.contents).contents } } := by
  have silent : ∀ (change : Batch → Store → Course) (keys : List Value) (s : Store),
      s.listeners = [] → Course.forEach (tell change) keys s = { store := s } := by
    intro change keys s quiet
    induction keys with
    | nil => rfl
    | cons key rest ih =>
      have : tell change key s = { store := s } := by simp [tell, Course.forEach, quiet]
      simpa [Course.forEach, Course.andThen, this] using ih
  simp [apply, applyWithin, quiet, clean, silent]

end Store

end Preferences

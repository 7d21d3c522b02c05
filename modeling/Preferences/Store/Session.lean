import Preferences.Store.Listener

/-! # Sessions

A `Session` is a run of steps over stores, editors and contexts.  Stores and editors are numbered in
the order in which they come.  An editor belongs to the store that is current when it is made, and
keeps what it has recorded until a change of its store has come to its end without a fault.  A
context gives out one store for each name, made when the name is first used. -/

namespace Preferences.Store

/-- Changes recorded for a store that have not been made yet. -/
structure Editor where
  store : Nat
  pending : Batch := {}

/-- A source of stores: what they hold at first, and the numbers of those it has given out. -/
structure Context where
  defaultName : Value
  initial : Contents := []
  given : List (Value × Nat) := []

/-- The store that the context has given out under a name. -/
def Context.find? (context : Context) (name : Value) : Option Nat :=
  (context.given.find? (·.1.same name)).map Prod.snd

/-- A session: the stores, the number of the current one, the editors, the context if there is one,
and the listeners that have been registered so far. -/
structure Session where
  stores : List Store
  current : Nat := 0
  editors : List Editor := []
  context : Option Context := none
  listeners : List Listener := []

inductive Step
  | edit
  | put (editor : Nat) (kind : Kind) (key value : Value)
  | remove (editor : Nat) (key : Value)
  | clear (editor : Nat)
  | apply (editor : Nat)
  | commit (editor : Nat)
  | read (kind : Kind) (key default : Value)
  | contains (key : Value)
  | getAll
  | openContext (defaultName : Value) (initial : Contents)
  | use (name : Value)
  | useDefault
  | listen (listener : Listener)
  | unlisten (listener : String)

inductive Result
  /-- Nothing. -/
  | done
  /-- The editor itself. -/
  | editor
  /-- The number of a store or an editor. -/
  | number (n : Nat)
  /-- A truth value. -/
  | flag (b : Bool)
  /-- A value. -/
  | value (v : Value)
  /-- All that a store holds. -/
  | contents (c : Contents)

/-- The answer to a step: what it gives, the calls with the number of the store that made them, and
the contents of the store after a change. -/
structure Reply where
  result : Except Fault Result
  events : List (Nat × Event) := []
  after : Option Contents := none

namespace Session

/-- The session that starts with one store. -/
def start (initial : Contents) : Session := { stores := [{ contents := initial }] }

def store (s : Session) (n : Nat) : Store := s.stores[n]?.getD {}

def setStore (s : Session) (n : Nat) (store : Store) : Session :=
  { s with stores := s.stores.set n store }

/-- The session with another batch recorded by an editor. -/
def setPending (s : Session) (n : Nat) (pending : Batch) : Session :=
  { s with editors := s.editors.modify n fun e => { e with pending } }

/-- The reply that only gives something. -/
def reply (result : Result) : Reply := { result := .ok result }

/-- The reply that is a fault. -/
def refuse (fault : Fault) : Reply := { result := .error fault }

/-- Records an operation with an editor. -/
def record (s : Session) (n : Nat) (operation : Except Misuse Operation) : Reply × Session :=
  match s.editors[n]?, operation with
  | none, _ => (refuse .noEditor, s)
  | some _, .error misuse => (refuse (.misused misuse), s)
  | some editor, .ok operation =>
    (reply .editor, s.setPending n (editor.pending.record operation))

/-- Makes the changes that an editor has recorded, and gives a result if they come to their end. -/
def applyEditor (s : Session) (n : Nat) (result : Result) : Reply × Session :=
  match s.editors[n]? with
  | none => (refuse .noEditor, s)
  | some editor =>
    let course := (s.store editor.store).apply editor.pending
    let changed := s.setStore editor.store course.store
    let events := course.events.map fun event => (editor.store, event)
    let after := some course.store.contents
    match course.fault with
    | some fault => ({ result := .error fault, events, after }, changed)
    | none => ({ result := .ok result, events, after }, changed.setPending n {})

/-- Makes the store of a name current. -/
def useStore (s : Session) (context : Context) (name : Value) : Reply × Session :=
  if !name.isKey then (refuse (.misused .notKey), s)
  else
    match context.find? name with
    | some n => (reply (.number n), { s with current := n })
    | none =>
      let n := s.stores.length
      (reply (.number n),
        { s with
          stores := s.stores ++ [{ contents := context.initial }], current := n,
          context := some { context with given := context.given ++ [(name, n)] } })

/-- The reply to a step, and the session after it. -/
def step (s : Session) : Step → Reply × Session
  | .edit =>
    (reply (.number s.editors.length), { s with editors := s.editors ++ [{ store := s.current }] })
  | .put n kind key value => s.record n (kind.write key value)
  | .remove n key => s.record n (.ok (.remove key))
  | .clear n =>
    match s.editors[n]? with
    | none => (refuse .noEditor, s)
    | some editor => (reply .editor, s.setPending n { editor.pending with clears := true })
  | .apply n => s.applyEditor n .done
  | .commit n => s.applyEditor n (.flag true)
  | .read kind key default =>
    ({ result := (kind.read (s.store s.current).contents key default).map Result.value }, s)
  | .contains key =>
    if key.isKey then (reply (.flag ((s.store s.current).contents.holds key)), s)
    else (refuse (.misused .notKey), s)
  | .getAll => (reply (.contents (s.store s.current).contents), s)
  | .openContext defaultName initial =>
    (reply (.value defaultName), { s with context := some { defaultName, initial } })
  | .use name =>
    match s.context with
    | none => (refuse .noContext, s)
    | some context => s.useStore context name
  | .useDefault =>
    match s.context with
    | none => (refuse .noContext, s)
    | some context => s.useStore context context.defaultName
  | .listen listener =>
    let known := s.listeners.find? (·.name == listener.name)
    let s := s.setStore s.current ((s.store s.current).register (known.getD listener))
    (reply .done, if known.isSome then s else { s with listeners := s.listeners ++ [listener] })
  | .unlisten listener =>
    match (s.store s.current).unregister listener with
    | .ok store => (reply .done, s.setStore s.current store)
    | .error fault => (refuse fault, s)

/-- The replies to a list of steps, and the session after them. -/
def run (s : Session) : List Step → List Reply × Session
  | [] => ([], s)
  | step :: rest =>
    let (reply, s) := s.step step
    let (replies, s) := s.run rest
    (reply :: replies, s)

theorem run_append (s : Session) (first second : List Step) :
    s.run (first ++ second) =
      ((s.run first).1 ++ ((s.run first).2.run second).1, ((s.run first).2.run second).2) := by
  induction first generalizing s with
  | nil => rfl
  | cons step rest ih => simp [run, ih]

end Session

end Preferences.Store

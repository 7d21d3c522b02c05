import Preferences.Proofs.Store.Steps

/-! # The calls of an apply

An event tells of a call by the name of the listener and by whether the key was there.  A `Call`
has all of it: the listener, the key, and the store that the listener finds.  `calls` collects the
calls of an apply, those of applies within it included, where each is made.

`Passes` is what an apply may do to a store, one move after the other: it writes contents, or calls
one of the listeners known at its beginning, and a listener that leaves when it is called takes
itself off the list or, if it is off it already, ends the course.  Every apply goes that way
(`passes_apply`), so what the moves keep holds of the course as a whole; the events tell of the
calls (`Passes.events_eq`), and the listeners that remain are among the old ones
(`Passes.sublist`). -/

namespace Preferences.Store

/-! ### One after the other -/

namespace Course

variable {α : Type}

theorem done_andThen (s : Store) (next : Store → Course) :
    andThen { store := s } next = next s := by
  simp [andThen]

theorem andThen_done (c : Course) : c.andThen (fun s => { store := s }) = c := by
  obtain ⟨store, events, fault⟩ := c
  cases fault <;> simp [andThen]

theorem andThen_assoc (c : Course) (first second : Store → Course) :
    (c.andThen first).andThen second = c.andThen fun s => (first s).andThen second := by
  obtain ⟨store, events, fault⟩ := c
  cases fault with
  | some fault => rfl
  | none =>
      simp only [andThen]
      cases ended : (first store).fault with
      | some fault => simp [ended]
      | none => simp [List.append_assoc]

theorem foldl_andThen (act : α → Store → Course) (items : List α) (c : Course) :
    items.foldl (fun c item => c.andThen (act item)) c = c.andThen (forEach act items) := by
  induction items generalizing c with
  | nil => exact c.andThen_done.symm
  | cons item rest ih =>
      have later : forEach act (item :: rest) =
          fun s => (act item s).andThen (forEach act rest) := by
        funext s
        rw [forEach, List.foldl_cons, ih, done_andThen]
      rw [List.foldl_cons, ih, andThen_assoc, later]

theorem forEach_cons (act : α → Store → Course) (item : α) (rest : List α) (s : Store) :
    forEach act (item :: rest) s = (act item s).andThen (forEach act rest) := by
  rw [forEach, List.foldl_cons, done_andThen, foldl_andThen]

end Course

/-! ### The calls -/

/-- Whether the listener takes itself off the list when it is called. -/
def Listener.leaves (l : Listener) : Bool :=
  match l.reaction with
  | .once => true
  | _ => false

/-- A call: who is told of which key, and the store that it finds. -/
structure Call where
  listener : Listener
  key : Value
  store : Store

namespace Call

/-- What is noted of the call. -/
def event (call : Call) : Event :=
  ⟨call.listener.name, call.key, call.store.contents.holds call.key⟩

/-- Whether the listener is registered when it is called. -/
def registered (call : Call) : Bool := call.store.listeners.any (·.name == call.listener.name)

/-- Whether the listener answers with a change of its own. -/
def writes (call : Call) : Bool :=
  match call.listener.reaction with
  | .put trigger _ _ => call.key.same trigger
  | _ => false

end Call

/-- The calls that are made while something is done for each item in turn. -/
def callsForEach {α : Type} (act : α → Store → Course) (calls : α → Store → List Call) :
    List α → Store → List Call
  | [], _ => []
  | item :: rest, s =>
    calls item s ++
      if (act item s).fault.isNone then callsForEach act calls rest (act item s).store else []

/-- The calls that the answer of a listener leads to. -/
def callsOfReaction (calls : Batch → Store → List Call) (l : Listener) (key : Value) (s : Store) :
    List Call :=
  match l.reaction with
  | .put trigger target number =>
    if key.same trigger then
      match Kind.int.write target number with
      | .ok operation => calls { operations := [operation] } s
      | .error _ => []
    else []
  | _ => []

/-- The call of a listener, and those that its answer leads to. -/
def callsOfCall (calls : Batch → Store → List Call) (key : Value) (l : Listener) (s : Store) :
    List Call :=
  if key.isKey then ⟨l, key, s⟩ :: callsOfReaction calls l key s else []

def callsOfTurn (change : Batch → Store → Course) (calls : Batch → Store → List Call) (key : Value)
    (s : Store) : List Call :=
  callsForEach (call change key) (callsOfCall calls key) s.listeners s

/-- The calls of an apply, with no more than a number of changes within each other. -/
def callsWithin : (depth : Nat) → Batch → Store → List Call
  | 0, _, _ => []
  | depth + 1, b, s =>
    let change := b.run s.contents
    match change.misuse with
    | some _ => []
    | none =>
      callsForEach (tell (applyWithin depth)) (callsOfTurn (applyWithin depth) (callsWithin depth))
        change.announced { s with contents := change.contents }

def calls (b : Batch) (s : Store) : List Call :=
  callsWithin ((s.listeners.filter Listener.writes).length + 1) b s

section equations
variable {b : Batch} {s : Store}

/-- A batch that runs to its end is made known key by key. -/
theorem applyWithin_of_clean (depth : Nat) (clean : (b.run s.contents).misuse = none) :
    applyWithin (depth + 1) b s = Course.forEach (tell (applyWithin depth))
      (b.run s.contents).announced { s with contents := (b.run s.contents).contents } := by
  simp only [applyWithin, clean]

theorem callsWithin_of_clean (depth : Nat) (clean : (b.run s.contents).misuse = none) :
    callsWithin (depth + 1) b s =
      callsForEach (tell (applyWithin depth)) (callsOfTurn (applyWithin depth) (callsWithin depth))
        (b.run s.contents).announced { s with contents := (b.run s.contents).contents } := by
  simp only [callsWithin, clean]

/-- A batch that breaks off is told to nobody. -/
theorem applyWithin_of_misuse (depth : Nat) {misuse : Misuse}
    (stops : (b.run s.contents).misuse = some misuse) :
    applyWithin (depth + 1) b s =
      .failed { s with contents := (b.run s.contents).contents } (.misused misuse) := by
  simp only [applyWithin, stops]

theorem callsWithin_of_misuse (depth : Nat) {misuse : Misuse}
    (stops : (b.run s.contents).misuse = some misuse) : callsWithin (depth + 1) b s = [] := by
  simp only [callsWithin, stops]

end equations

/-! ### The moves -/

/-- The course that begins with a call. -/
def Course.called (call : Call) (c : Course) : Course :=
  { c with events := call.event :: c.events }

theorem call_of_isKey (change : Batch → Store → Course) {key : Value} (h : key.isKey = true)
    (l : Listener) (s : Store) :
    call change key l s = (react change l key s).called ⟨l, key, s⟩ := by
  rw [call, if_pos h]
  rfl

/-- A course from a store, with its calls, as one move after the other: the listeners that are
called are among the known ones. -/
inductive Passes (known : List Listener) : Store → List Call → Course → Prop
  | done (s : Store) : Passes known s [] { store := s }
  | failed (s : Store) {fault : Fault} (other : fault ≠ .notRegistered) :
      Passes known s [] (.failed s fault)
  | written {s : Store} {contents : Contents} {calls : List Call} {c : Course}
      (next : Passes known { s with contents } calls c) : Passes known s calls c
  | stayed {s : Store} {l : Listener} (key : Value) {calls : List Call} {c : Course}
      (member : l ∈ known) (stays : l.leaves = false) (next : Passes known s calls c) :
      Passes known s (⟨l, key, s⟩ :: calls) (c.called ⟨l, key, s⟩)
  | left {s t : Store} {l : Listener} (key : Value) {calls : List Call} {c : Course}
      (member : l ∈ known) (leaves : l.leaves = true) (off : s.unregister l.name = .ok t)
      (next : Passes known t calls c) :
      Passes known s (⟨l, key, s⟩ :: calls) (c.called ⟨l, key, s⟩)
  | missed (s : Store) {l : Listener} (key : Value) (member : l ∈ known) (leaves : l.leaves = true)
      (gone : s.unregister l.name = .error .notRegistered) :
      Passes known s [⟨l, key, s⟩] ((Course.failed s .notRegistered).called ⟨l, key, s⟩)

section passes
variable {known : List Listener} {s : Store} {calls : List Call} {c : Course}

theorem unregister_eq (name : String) (s : Store) :
    s.unregister name = if s.listeners.any (·.name == name) then
      .ok { s with listeners := s.listeners.eraseP (·.name == name) }
    else .error .notRegistered := rfl

theorem Passes.events_eq (h : Passes known s calls c) : c.events = calls.map Call.event := by
  induction h with
  | done | failed => rfl
  | written _ ih => exact ih
  | stayed key member stays _ ih => rw [Course.called, List.map_cons, ih]
  | left key member leaves off _ ih => rw [Course.called, List.map_cons, ih]
  | missed => rfl

/-- Only known listeners are called. -/
theorem Passes.listener_mem (h : Passes known s calls c) :
    ∀ made ∈ calls, made.listener ∈ known := by
  induction h with
  | done | failed => simp
  | written _ ih => exact ih
  | stayed key member stays _ ih => exact List.forall_mem_cons.mpr ⟨member, ih⟩
  | left key member leaves off _ ih => exact List.forall_mem_cons.mpr ⟨member, ih⟩
  | missed s key member => exact List.forall_mem_singleton.mpr member

theorem Passes.sublist (h : Passes known s calls c) :
    c.store.listeners.Sublist s.listeners := by
  induction h with
  | done | failed | missed => exact List.Sublist.refl _
  | written _ ih => exact ih
  | stayed key member stays _ ih => exact ih
  | left key member leaves off _ ih =>
      rw [unregister_eq] at off
      split at off
      · cases off
        exact ih.trans List.eraseP_sublist
      · cases off

/-- A course goes on with another one unless it has ended. -/
theorem Passes.andThen {next : Store → Course} {later : List Call} (first : Passes known s calls c)
    (second : c.fault = none → Passes known c.store later (next c.store)) :
    Passes known s (calls ++ if c.fault.isNone then later else []) (c.andThen next) := by
  have called : ∀ (call : Call) (c : Course),
      (c.called call).andThen next = (c.andThen next).called call := by
    intro call c
    obtain ⟨store, events, fault⟩ := c
    cases fault <;> rfl
  induction first with
  | done s =>
      rw [Course.done_andThen]
      exact second rfl
  | failed s other => exact .failed s other
  | written _ ih => exact .written (ih second)
  | stayed key member stays _ ih =>
      rw [called]
      exact .stayed key member stays (ih second)
  | left key member leaves off _ ih =>
      rw [called]
      exact .left key member leaves off (ih second)
  | missed s key member leaves gone => exact .missed s key member leaves gone

/-- What is done for each item in turn goes by moves if what is done for one does. -/
theorem passes_forEach {α : Type} {act : α → Store → Course} {calls : α → Store → List Call}
    {items : List α} (one : ∀ item ∈ items, ∀ s, s.listeners ⊆ known →
      Passes known s (calls item s) (act item s)) (s : Store) (old : s.listeners ⊆ known) :
    Passes known s (callsForEach act calls items s) (Course.forEach act items s) := by
  induction items generalizing s with
  | nil => exact .done s
  | cons item rest ih =>
      rw [Course.forEach_cons]
      have first := one item List.mem_cons_self s old
      refine first.andThen fun _ => ?_
      exact ih (fun item' member => one item' (List.mem_cons_of_mem _ member)) _
        (List.Subset.trans first.sublist.subset old)

variable {change : Batch → Store → Course} {within : Batch → Store → List Call}
variable (sound : ∀ b s, s.listeners ⊆ known → Passes known s (within b s) (change b s))
include sound

theorem passes_call {l : Listener} (member : l ∈ known) (key : Value) (s : Store)
    (old : s.listeners ⊆ known) :
    Passes known s (callsOfCall within key l s) (call change key l s) := by
  unfold callsOfCall
  by_cases hk : key.isKey = true
  · rw [if_pos hk, call_of_isKey change hk]
    unfold callsOfReaction react
    cases reaction : l.reaction with
    | log => exact .stayed key member (by simp [Listener.leaves, reaction]) (.done s)
    | raise trigger =>
        refine .stayed key member (by simp [Listener.leaves, reaction]) ?_
        dsimp only
        split
        · exact .failed s nofun
        · exact .done s
    | put trigger target number =>
        refine .stayed key member (by simp [Listener.leaves, reaction]) ?_
        dsimp only
        split
        · cases Kind.int.write target number with
          | ok operation => exact sound _ s old
          | error misuse => exact .failed s nofun
        · exact .done s
    | once =>
        have leaves : l.leaves = true := by simp [Listener.leaves, reaction]
        dsimp only
        cases off : s.unregister l.name with
        | ok t => exact .left key member leaves off (.done t)
        | error fault =>
            have same : fault = .notRegistered := by
              rw [unregister_eq] at off
              split at off
              · cases off
              · exact (Except.error.inj off).symm
            subst same
            exact .missed s key member leaves off
  · rw [if_neg hk, call, if_neg hk]
    exact .failed s nofun

theorem passes_tell (key : Value) (s : Store) (old : s.listeners ⊆ known) :
    Passes known s (callsOfTurn change within key s) (tell change key s) :=
  passes_forEach (fun _ member => passes_call sound (old member) key) s old

end passes

theorem passes_applyWithin {known : List Listener} (depth : Nat) (b : Batch) (s : Store)
    (old : s.listeners ⊆ known) :
    Passes known s (callsWithin depth b s) (applyWithin depth b s) := by
  induction depth generalizing b s with
  | zero => exact .failed s nofun
  | succ depth ih =>
      have told : ∀ keys, Passes known { s with contents := (b.run s.contents).contents }
          (callsForEach _ (callsOfTurn _ (callsWithin depth)) keys _)
          (Course.forEach (tell (applyWithin depth)) keys _) :=
        fun keys => passes_forEach (fun key _ => passes_tell ih key) _ old
      cases stops : (b.run s.contents).misuse with
      | some misuse =>
          rw [applyWithin_of_misuse depth stops, callsWithin_of_misuse depth stops]
          exact .written (.failed _ nofun)
      | none =>
          rw [applyWithin_of_clean depth stops, callsWithin_of_clean depth stops]
          exact .written (told _)

/-- Every apply goes by moves. -/
theorem passes_apply (b : Batch) (s : Store) : Passes s.listeners s (s.calls b) (s.apply b) :=
  passes_applyWithin _ b s (List.Subset.refl _)

namespace Session

variable {s : Session}

/-! ### The calls of a step -/

/-- The calls that a step makes, with the number of the store that makes them. -/
def callsOf (s : Session) (step : Step) : List (Nat × Call) :=
  match step.applied?.bind (s.editors[·]?) with
  | some e => ((s.store e.store).calls e.pending).map (e.store, ·)
  | none => []

theorem callsOf_of_applied? {n : Nat} {e : Editor} {step : Step} (here : s.editors[n]? = some e)
    (applies : step.applied? = some n) :
    s.callsOf step = ((s.store e.store).calls e.pending).map (e.store, ·) := by
  simp [callsOf, applies, here]

theorem step_events (s : Session) (step : Step) :
    (s.step step).1.events = (s.callsOf step).map fun told => (told.1, told.2.event) := by
  cases applies : step.applied? with
  | some n =>
      obtain ⟨result, same⟩ := s.step_of_applied? applies
      rw [same]
      unfold applyEditor callsOf
      cases here : s.editors[n]? with
      | none => simp [applies, here, refuse]
      | some e =>
          have events := (passes_apply e.pending (s.store e.store)).events_eq
          simp only [applies, here, events, Option.bind_some, List.map_map]
          cases ((s.store e.store).apply e.pending).fault <;> rfl
  | none =>
      have nothing : s.callsOf step = [] := by simp [callsOf, applies]
      rw [nothing]
      cases step with
      | apply | commit => cases applies
      | put n kind key value =>
          simp only [Session.step, record]
          split <;> rfl
      | remove n key =>
          simp only [Session.step, record]
          split <;> rfl
      | use | useDefault =>
          simp only [Session.step, useStore]
          repeat' split
          all_goals rfl
      | clear | contains | unlisten =>
          simp only [Session.step]
          split <;> rfl
      | edit | read | getAll | openContext | listen => rfl

end Session

end Preferences.Store

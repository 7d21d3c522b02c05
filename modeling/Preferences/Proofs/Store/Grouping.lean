import Mathlib.Data.List.Permutation
import Preferences.Proofs.Store.Delivery
import Preferences.Proofs.Value.Distinct

/-! # Changes made together and one by one

The same writes and removals can be recorded with one editor and applied at once (`together`), or
each of them with an editor of its own that is applied before the next is made (`apart`).  Where
only listeners that take note are registered, both ways leave the same stores.  They differ in what
is announced: one by one, the key of every operation, and together each key once, where it came
first (`announced_run_of_isKey`).  So what a listener hears of in the one apply is what it hears of
in the many, without repetitions (`apply_together_eq_apart`). -/

namespace Preferences

/-- Among texts only equal ones are repetitions. -/
theorem Value.distinct_of_isText {values : List Value} (texts : ∀ v ∈ values, v.isText = true) :
    distinct values = values.eraseDups := by
  induction values using List.reverseRecOn with
  | nil => rfl
  | append_singleton values v ih =>
      have text : v.isText = true := texts v (by simp)
      have among : values.eraseDups.any (·.same v) = decide (v ∈ values) := by
        simp [Value.same_eq_decide text, List.any_eq]
      rw [distinct_concat, ih fun w hw => texts w (by simp [hw]), among,
        List.eraseDups_append]
      by_cases old : v ∈ values
      · simp [old, List.removeAll]
      · simp [old, List.removeAll, List.eraseDups_cons]

namespace Store

/-- A batch that clears nothing announces the keys of its operations, each where it comes first. -/
theorem Batch.announced_run_of_isKey {b : Batch} (keeps : b.clears = false)
    (keys : ∀ o ∈ b.operations, o.key.isKey = true) (c : Contents) :
    (b.run c).announced = Value.distinct (b.operations.map Operation.key) := by
  induction b using record_induction with
  | start clears =>
      obtain rfl : clears = false := keeps
      rfl
  | record b operation ih =>
      obtain ⟨others, isKey⟩ := (b.forall_mem_record operation).mp keys
      have done := Operation.perform_of_not_blocked
        (Operation.not_blocked_of_isKey isKey (b.run c).contents)
      rw [run_record, Change.perform, (run_of_isKey others c).1]
      dsimp only
      rw [done, record_operations, List.map_append, List.map_singleton, Value.distinct_concat,
        ← ih keeps others]
      rfl

section noting
variable {c : Contents} {listeners : List Listener}

/-- The listeners only take note, and each is registered once. -/
structure Noting (listeners : List Listener) : Prop where
  log : ∀ l ∈ listeners, l.reaction = .log
  once : (listeners.map Listener.name).Nodup

theorem Noting.ofOneName (h : Noting listeners) : OfOneName listeners :=
  fun _ hl _ ho same => List.inj_on_of_nodup_map h.once hl ho same

theorem Noting.staying_eq (h : Noting listeners) : staying listeners = listeners := by
  refine List.filter_eq_self.mpr fun l hl => ?_
  simp [Listener.leaves, h.log l hl]

/-- Listeners that take note leave a change as it is, and all are told of every announced key. -/
theorem Noting.apply (h : Noting listeners) {b : Batch} (keeps : b.clears = false)
    (keys : ∀ o ∈ b.operations, o.key.isKey = true) :
    Store.apply b ⟨c, listeners⟩ =
      { store := ⟨b.outcome c, listeners⟩
        events := (Value.distinct (b.operations.map Operation.key)).flatMap fun key =>
          listeners.map (told (b.outcome c) key) } := by
  obtain ⟨clean, contents⟩ := Batch.run_of_isKey keys c
  have announced := Batch.announced_run_of_isKey keeps keys c
  have isKey : ∀ key ∈ (b.run c).announced, key.isKey = true := by
    rw [announced]
    intro key member
    obtain ⟨o, ho, rfl⟩ := List.mem_map.mp ((Value.distinct_sublist _).subset member)
    exact keys o ho
  unfold Store.apply
  rw [applyWithin_of_clean _ clean, tell_all_of_staying isKey h.ofOneName
    (fun l hl => Or.inl (h.log l hl)) h.staying_eq, contents, announced]

end noting

/-! ### The two ways -/

/-- A call that has an editor record a write or a removal. -/
inductive Edit
  | put (kind : Kind) (key value : Value)
  | remove (key : Value)

namespace Edit

def key : Edit → Value
  | put _ key _ => key
  | remove key => key

/-- What is recorded, if the value can be converted. -/
def operation : Edit → Except Misuse Operation
  | put kind key value => kind.write key value
  | remove key => .ok (.remove key)

/-- The call as a step on an editor. -/
def on (n : Nat) : Edit → Step
  | put kind key value => .put n kind key value
  | remove key => .remove n key

/-- What is recorded by all of the calls. -/
def operations (edits : List Edit) : List Operation := edits.filterMap (·.operation.toOption)

/-- The contents that the calls make of some contents. -/
def made (edits : List Edit) (c : Contents) : Contents := (operations edits).foldl Operation.act c

variable {n : Nat} {edit : Edit} {edits : List Edit}

theorem editor?_on (n : Nat) (edit : Edit) : (edit.on n).editor? = some n := by cases edit <;> rfl

theorem applied?_on (n : Nat) (edit : Edit) : (edit.on n).applied? = none := by cases edit <;> rfl

theorem recorded?_on (n : Nat) (edit : Edit) :
    (edit.on n).recorded? = edit.operation.toOption := by cases edit <;> rfl

theorem ofSteps_on (n : Nat) (edits : List Edit) :
    Batch.ofSteps (edits.map (·.on n)) = { operations := operations edits } := by
  have clears : (edits.map (·.on n)).any Step.clears = false := by
    simp only [List.any_map, List.any_eq_false]
    rintro (_ | _) - <;> simp [on, Step.clears]
  have recorded : (edits.map (·.on n)).filterMap Step.recorded? = operations edits := by
    rw [List.filterMap_map]
    exact congrArg (List.filterMap · edits) (funext (recorded?_on n))
  rw [Batch.ofSteps, clears, recorded]

theorem key_of_operation {o : Operation} (h : edit.operation = .ok o) : o.key = edit.key := by
  have recorded : (edit.on 0).recorded? = some o := by
    rw [recorded?_on, h]
    rfl
  have key? : (edit.on 0).key? = some edit.key := by cases edit <;> rfl
  exact Option.some.inj ((Step.key?_of_recorded? recorded).symm.trans key?)

theorem operations_keys (accepted : ∀ edit ∈ edits, edit.operation.isOk = true) :
    (operations edits).map Operation.key = edits.map Edit.key := by
  induction edits with
  | nil => rfl
  | cons edit rest ih =>
      have later := ih fun other ho => accepted other (List.mem_cons_of_mem _ ho)
      have this := accepted edit List.mem_cons_self
      cases recorded : edit.operation with
      | error misuse =>
          rw [recorded] at this
          cases this
      | ok o => simp [operations, recorded, Except.toOption, key_of_operation recorded, ← later]

theorem made_cons (edit : Edit) (rest : List Edit) (c : Contents) :
    made (edit :: rest) c = made rest (made [edit] c) := by
  unfold made operations
  rw [← List.singleton_append, List.filterMap_append, List.foldl_append]

end Edit

/-- A new editor, of number `n`, records all the edits and applies them at once. -/
def together (n : Nat) (edits : List Edit) : List Step :=
  .edit :: (edits.map (·.on n) ++ [.apply n])

/-- New editors, from number `n` on, record one edit each, and each is applied at once. -/
def apart (n : Nat) : List Edit → List Step
  | [] => []
  | edit :: rest => together n [edit] ++ apart (n + 1) rest

/-- The keys that a listener is told of, in order. -/
def heard (name : String) (replies : List Reply) : List Value :=
  ((replies.flatMap Reply.events).filter (·.2.listener == name)).map (·.2.key)

theorem heard_append (name : String) (first second : List Reply) :
    heard name (first ++ second) = heard name first ++ heard name second := by
  simp [heard]

section told
variable {c : Contents} {listeners : List Listener}

theorem registrations_of_once (once : (listeners.map Listener.name).Nodup) (name : String) :
    registrations name listeners = if name ∈ listeners.map Listener.name then 1 else 0 := by
  rw [← once.count, List.count, List.countP_map]
  rfl

theorem heard_told (once : (listeners.map Listener.name).Nodup) (name : String) (keys : List Value)
    (n : Nat) (result : Except Fault Result) (after : Option Contents) :
    heard name [{ result, after, events :=
      (keys.flatMap fun key => listeners.map (told c key)).map (n, ·) }] =
    if name ∈ listeners.map Listener.name then keys else [] := by
  have turn : ∀ key, ((listeners.map (told c key)).filter (·.listener == name)).map Event.key =
      if name ∈ listeners.map Listener.name then [key] else [] := by
    intro key
    have same : Event.key ∘ told c key = fun _ => key := rfl
    have number := registrations_of_once once name
    rw [registrations, List.countP_eq_length_filter] at number
    rw [List.filter_map, List.map_map, same, List.map_const']
    change List.replicate (listeners.filter (·.name == name)).length key = _
    rw [number]
    split_ifs <;> rfl
  have each : ∀ key, (((listeners.map (told c key)).map (n, ·)).filter
      (·.2.listener == name)).map (·.2.key) =
      ((listeners.map (told c key)).filter (·.listener == name)).map Event.key := by
    intro key
    rw [List.filter_map, List.map_map]
    rfl
  unfold heard
  simp only [List.flatMap_cons, List.flatMap_nil, List.append_nil, List.map_flatMap,
    List.filter_flatMap, each, turn]
  split_ifs
  · exact List.flatMap_singleton' keys
  · exact List.flatMap_eq_nil_iff.mpr fun _ _ => rfl

end told

namespace Session

variable {s : Session} {edits : List Edit}

/-- The session with other contents of the current store, and with one more editor of that
store. -/
def left (s : Session) (c : Contents) : Session :=
  { s.setStore s.current { s.store s.current with contents := c } with
    editors := s.editors ++ [{ store := s.current }] }

theorem step_on {n : Nat} {e : Editor} {edit : Edit} (here : s.editors[n]? = some e)
    (accepted : edit.operation.isOk = true) : (s.step (edit.on n)).1 = reply .editor := by
  cases recorded : edit.operation with
  | error misuse =>
      rw [recorded] at accepted
      cases accepted
  | ok o =>
      cases edit with
      | put kind key value =>
          have written : kind.write key value = .ok o := recorded
          simp [Edit.on, Session.step, record, here, written]
      | remove key => simp [Edit.on, Session.step, record, here]

theorem run_on {n : Nat} {e : Editor} (here : s.editors[n]? = some e)
    (accepted : ∀ edit ∈ edits, edit.operation.isOk = true) :
    (s.run (edits.map (·.on n))).1 = edits.map fun _ => reply .editor := by
  induction edits generalizing s e with
  | nil => rfl
  | cons edit rest ih =>
      have there : (s.step (edit.on n)).2.editors[n]? =
          some { e with pending := e.pending.follow (edit.on n) } := by
        rw [s.step_of_call (edit.editor?_on n) (edit.applied?_on n)]
        exact updatePending_getElem?_self here _
      have later := ih there fun other ho => accepted other (List.mem_cons_of_mem _ ho)
      simp [run, step_on here (accepted edit List.mem_cons_self), later]

theorem applyEditor_of_clean {n : Nat} {e : Editor} {store : Store} {events : List Event}
    (here : s.editors[n]? = some e)
    (course : (s.store e.store).apply e.pending = { store, events }) (result : Result) :
    s.applyEditor n result =
      ({ result := .ok result, events := events.map (e.store, ·), after := some store.contents },
        (s.setStore e.store store).updatePending n fun _ => {}) := by
  unfold applyEditor
  simp only [here, course]
  rfl

/-- The session with one more editor of the current store. -/
def opened (s : Session) : Session := { s with editors := s.editors ++ [{ store := s.current }] }

theorem opened_editor (s : Session) :
    s.opened.editors[s.editors.length]? = some { store := s.current } := by
  simp [opened]

theorem opened_run (s : Session) (edits : List Edit) :
    (s.opened.run (edits.map (·.on s.editors.length))).2 =
      s.opened.updatePending s.editors.length fun _ => { operations := Edit.operations edits } := by
  rw [run_of_calls s.opened (n := s.editors.length) (by simp [Edit.editor?_on])
    (by simp [Edit.applied?_on])]
  refine updatePending_congr fun e he => ?_
  obtain rfl := Option.some.inj (s.opened_editor.symm.trans he)
  rw [Batch.foldl_follow, Edit.ofSteps_on]

/-- What applying the new editor comes to when it has recorded some edits. -/
theorem opened_applyEditor (noting : Noting (s.store s.current).listeners)
    (isKey : ∀ edit ∈ edits, edit.key.isKey = true)
    (accepted : ∀ edit ∈ edits, edit.operation.isOk = true) :
    let c := Edit.made edits (s.store s.current).contents
    (s.opened.updatePending s.editors.length fun _ =>
      { operations := Edit.operations edits }).applyEditor s.editors.length .done =
      ({ result := .ok .done, after := some c, events :=
        ((Value.distinct (edits.map Edit.key)).flatMap fun key =>
          (s.store s.current).listeners.map (told c key)).map (s.current, ·) }, s.left c) := by
  intro c
  let batch : Batch := { operations := Edit.operations edits }
  have keys : batch.operations.map Operation.key = edits.map Edit.key :=
    Edit.operations_keys accepted
  have batch_keys : ∀ o ∈ batch.operations, o.key.isKey = true := by
    intro o ho
    have member := List.mem_map_of_mem (f := Operation.key) ho
    rw [keys] at member
    obtain ⟨edit, he, same⟩ := List.mem_map.mp member
    exact same ▸ isKey edit he
  have course := noting.apply (c := (s.store s.current).contents) (b := batch) rfl batch_keys
  rw [keys] at course
  rw [applyEditor_of_clean (updatePending_getElem?_self s.opened_editor fun _ => batch) course]
  refine Prod.ext rfl ?_
  -- What was recorded is gone, and the new editor is again as it was made.
  change (((s.opened.setStore s.current ⟨c, _⟩).updatePending s.editors.length
    fun _ => batch).updatePending s.editors.length fun _ => {}) = _
  rw [updatePending_updatePending]
  refine updatePending_eq_self fun e he => ?_
  obtain rfl := Option.some.inj (s.opened_editor.symm.trans he)
  rfl

/-- What recording some edits with one editor and applying them comes to. -/
theorem run_together (noting : Noting (s.store s.current).listeners)
    (isKey : ∀ edit ∈ edits, edit.key.isKey = true)
    (accepted : ∀ edit ∈ edits, edit.operation.isOk = true) :
    let c := Edit.made edits (s.store s.current).contents
    s.run (together s.editors.length edits) =
      (reply (.number s.editors.length) :: (edits.map fun _ => reply .editor) ++
        [{ result := .ok .done, after := some c, events :=
          ((Value.distinct (edits.map Edit.key)).flatMap fun key =>
            (s.store s.current).listeners.map (told c key)).map (s.current, ·) }],
        s.left c) := by
  intro c
  have first : s.step .edit = (reply (.number s.editors.length), s.opened) := rfl
  have recorded := run_on s.opened_editor accepted
  have last : ∀ t : Session, t.step (.apply s.editors.length) =
      t.applyEditor s.editors.length .done := fun _ => rfl
  simp only [together, run, run_append, first, recorded, opened_run, last,
    opened_applyEditor noting isKey accepted, List.cons_append, c]

/-- Recorded together, edits are announced once for each key. -/
theorem together_heard (noting : Noting (s.store s.current).listeners)
    (isKey : ∀ edit ∈ edits, edit.key.isKey = true)
    (accepted : ∀ edit ∈ edits, edit.operation.isOk = true) :
    (∀ reply ∈ (s.run (together s.editors.length edits)).1, reply.result.isOk = true) ∧
    (s.run (together s.editors.length edits)).2 =
      s.left (Edit.made edits (s.store s.current).contents) ∧
    ∀ name, heard name (s.run (together s.editors.length edits)).1 =
      if name ∈ (s.store s.current).listeners.map Listener.name then
        Value.distinct (edits.map Edit.key) else [] := by
  rw [run_together noting isKey accepted]
  refine ⟨?_, rfl, fun name => ?_⟩
  · intro reply member
    simp only [List.cons_append, List.mem_cons, List.mem_append, List.mem_map, List.not_mem_nil,
      or_false] at member
    rcases member with rfl | ⟨edit, -, rfl⟩ | rfl <;> rfl
  · have silent : heard name (reply (.number s.editors.length) ::
        edits.map fun _ => reply .editor) = [] := by
      simp [heard, reply]
    rw [heard_append, silent, List.nil_append]
    exact heard_told noting.once name _ _ _ _

theorem left_store (there : s.current < s.stores.length) (c : Contents) :
    (s.left c).store s.current = { s.store s.current with contents := c } :=
  store_setStore s there _

theorem left_stores (s : Session) (c : Contents) :
    (s.left c).stores = s.stores.set s.current { s.store s.current with contents := c } := rfl

theorem left_left_stores (there : s.current < s.stores.length) (c d : Contents) :
    ((s.left c).left d).stores = (s.left d).stores := by
  have again : (s.left c).current = s.current := rfl
  rw [left_stores, again, left_store there, left_stores, List.set_set, left_stores]

/-- Recorded apart, edits are announced one by one. -/
theorem apart_heard (there : s.current < s.stores.length)
    (noting : Noting (s.store s.current).listeners)
    (isKey : ∀ edit ∈ edits, edit.key.isKey = true)
    (accepted : ∀ edit ∈ edits, edit.operation.isOk = true) :
    (∀ reply ∈ (s.run (apart s.editors.length edits)).1, reply.result.isOk = true) ∧
    (s.run (apart s.editors.length edits)).2.stores =
      (s.left (Edit.made edits (s.store s.current).contents)).stores ∧
    ∀ name, heard name (s.run (apart s.editors.length edits)).1 =
      if name ∈ (s.store s.current).listeners.map Listener.name then edits.map Edit.key
      else [] := by
  induction edits generalizing s with
  | nil =>
      refine ⟨nofun, ?_, fun name => by split_ifs <;> rfl⟩
      exact (congrArg Session.stores (s.setStore_store_self s.current)).symm
  | cons edit rest ih =>
      let c := Edit.made [edit] (s.store s.current).contents
      have number : (s.left c).editors.length = s.editors.length + 1 := List.length_append
      have there' : (s.left c).current < (s.left c).stores.length :=
        (s.setStore_stores_length s.current _).symm ▸ there
      have store : (s.left c).store (s.left c).current = { s.store s.current with contents := c } :=
        left_store there c
      have alone : ∀ other ∈ [edit], other ∈ edit :: rest := by simp
      obtain ⟨ok, after, first⟩ := together_heard noting
        (fun other ho => isKey other (alone other ho))
        fun other ho => accepted other (alone other ho)
      obtain ⟨ok', stores, later⟩ := ih there' (by rw [store]; exact noting)
        (fun other ho => isKey other (List.mem_cons_of_mem _ ho))
        fun other ho => accepted other (List.mem_cons_of_mem _ ho)
      rw [number] at ok' stores later
      rw [store] at stores later
      rw [apart, run_append, after]
      refine ⟨fun reply member => (List.mem_append.mp member).elim (ok reply) (ok' reply), ?_,
        fun name => ?_⟩
      · rw [stores, Edit.made_cons]
        exact left_left_stores there c _
      · rw [heard_append, first, later]
        split_ifs <;> rfl

/-- **Changes made together and one by one.**  Where the current store has only listeners that take
note, each registered once, and every edit has a key that can be one and a value that converts, it
makes no difference to the stores whether one editor records all edits and applies them at once or
every edit has an editor of its own that is applied before the next is made; no step of either run
ends in a fault.  One by one, every listener is told of the key of each edit; together, it is told
of the same keys, each where it came first. -/
theorem apply_together_eq_apart (linked : s.Linked)
    (log : ∀ l ∈ (s.store s.current).listeners, l.reaction = .log)
    (once : ((s.store s.current).listeners.map Listener.name).Nodup)
    (isKey : ∀ edit ∈ edits, edit.key.isKey = true)
    (accepted : ∀ edit ∈ edits, edit.operation.isOk = true) :
    let grouped := s.run (together s.editors.length edits)
    let single := s.run (apart s.editors.length edits)
    (∀ reply ∈ grouped.1 ++ single.1, reply.result.isOk = true) ∧
    grouped.2.stores = single.2.stores ∧
    (∀ l ∈ (s.store s.current).listeners, heard l.name single.1 = edits.map Edit.key) ∧
    (∀ name, heard name grouped.1 = Value.distinct (heard name single.1)) ∧
    ((∀ edit ∈ edits, edit.key.isText = true) →
      ∀ name, heard name grouped.1 = (heard name single.1).eraseDups) := by
  intro grouped single
  have noting : Noting (s.store s.current).listeners := ⟨log, once⟩
  obtain ⟨ok, after, all⟩ := together_heard noting isKey accepted
  obtain ⟨ok', stores, each⟩ := apart_heard linked.current noting isKey accepted
  have repeated : ∀ name, heard name grouped.1 = Value.distinct (heard name single.1) := by
    intro name
    rw [all name, each name]
    split_ifs <;> rfl
  refine ⟨fun reply member => (List.mem_append.mp member).elim (ok reply) (ok' reply), ?_, ?_,
    repeated, fun texts name => ?_⟩
  · exact (congrArg Session.stores after).trans stores.symm
  · intro l member
    rw [each, if_pos (List.mem_map_of_mem member)]
  · rw [repeated name, each name]
    split_ifs
    · refine Value.distinct_of_isText fun key member => ?_
      obtain ⟨edit, he, rfl⟩ := List.mem_map.mp member
      exact texts edit he
    · rfl

def noted : Session :=
  ((start [(.text "a", .int 1), (.text "b", .int 2)]).run
    [.listen ⟨"l", .log⟩, .listen ⟨"m", .log⟩]).2

/-- An old key is written, removed and written again, and one that there is not is removed. -/
def rewriting : List Edit :=
  [.put .int (.text "a") (.int 3), .remove (.text "a"), .remove (.text "z"),
    .put .text (.text "a") (.text "x"), .put .text (.text "b") .null, .remove (.text "z")]

theorem apply_together_eq_apart_noted :
    (noted.run (together 0 rewriting)).2.stores = (noted.run (apart 0 rewriting)).2.stores ∧
    ((noted.run (together 0 rewriting)).2.store 0).contents = [(.text "a", .text "x")] ∧
    heard "m" (noted.run (apart 0 rewriting)).1 =
      [.text "a", .text "a", .text "z", .text "a", .text "b", .text "z"] ∧
    heard "m" (noted.run (together 0 rewriting)).1 = [.text "a", .text "z", .text "b"] := by
  have linked : noted.Linked := linked_run _ _
  have listeners : (noted.store noted.current).listeners = [⟨"l", .log⟩, ⟨"m", .log⟩] := rfl
  have isKey : ∀ edit ∈ rewriting, edit.key.isKey = true := by decide
  obtain ⟨-, stores, each, all, -⟩ := apply_together_eq_apart linked (by simp [listeners])
    (by simp [listeners]) isKey (by decide)
  have told := each ⟨"m", .log⟩ (by simp [listeners])
  refine ⟨stores, by cbv, told, ?_⟩
  exact (all "m").trans ((congrArg Value.distinct told).trans (by cbv))

end Session

end Store
end Preferences

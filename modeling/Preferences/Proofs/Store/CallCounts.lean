import Preferences.Proofs.Store.Registered

/-! # Calls and registrations in a run

From one step to the next no listener is called that is not registered (`run_of_not_registered`),
and one that leaves when it is called is called no more often than it has been registered, apart
from the calls that end a step in a fault (`run_calls_le`).  How such a call comes about is told for
a step by `missed_of_not_registered` and `step_notRegistered_iff`. -/

namespace Preferences.Store

/-! ### One step -/

/-- Whether the step registers a listener of this name. -/
def Step.listens (name : String) : Step → Bool
  | .listen l => l.name == name
  | _ => false

/-- How many calls of a store to listeners of a name a reply notes. -/
def Reply.callsTo (n : Nat) (name : String) (reply : Reply) : Nat :=
  reply.events.countP fun told => told.1 == n && told.2.listener == name

/-- Whether the reply tells that a listener of a name that a store has called was not registered. -/
def Reply.misses (n : Nat) (name : String) (reply : Reply) : Bool :=
  match reply.result, reply.events.getLast? with
  | .error .notRegistered, some told => told.1 == n && told.2.listener == name
  | _, _ => false

namespace Session

variable {s : Session} {step : Step} {n : Nat} {name : String}

def registrationsAt (s : Session) (n : Nat) (name : String) : Nat :=
  registrations name (s.store n).listeners

theorem store_setStore_of_ne (s : Session) {m n : Nat} (ne : m ≠ n) (store : Store) :
    (s.setStore m store).store n = s.store n := by
  simp [setStore, Session.store, ne]

/-- A store with no more registrations than another one, or one more, in its place. -/
theorem registrationsAt_setStore_le {m : Nat} (there : m < s.stores.length) {store : Store}
    {more : Nat} (le : registrations name store.listeners ≤ s.registrationsAt m name + more)
    (n : Nat) :
    (s.setStore m store).registrationsAt n name ≤
      s.registrationsAt n name + if m = n then more else 0 := by
  unfold registrationsAt
  by_cases same : m = n
  · subst same
    rw [s.store_setStore there, if_pos rfl]
    exact le
  · rw [s.store_setStore_of_ne same, if_neg same]
    exact Nat.le_refl _

theorem useStore_registrationsAt (s : Session) (context : Context) (key : Value) :
    (s.useStore context key).2.registrationsAt n name = s.registrationsAt n name := by
  unfold useStore
  split_ifs
  · rfl
  · cases context.find? key with
    | some m => rfl
    | none =>
        unfold registrationsAt Session.store
        dsimp only
        rcases Nat.lt_trichotomy n s.stores.length with lt | rfl | gt
        · rw [List.getElem?_append_left lt]
        · simp
        · rw [List.getElem?_eq_none (by simp; omega), List.getElem?_eq_none (Nat.le_of_lt gt)]

/-- Only a step that registers a listener gives a store one more registration. -/
theorem step_registrationsAt_le (linked : s.Linked) (step : Step) (n : Nat) (name : String) :
    (s.step step).2.registrationsAt n name ≤
      s.registrationsAt n name + if s.current = n ∧ step.listens name = true then 1 else 0 := by
  -- A list in place of another that has no more registrations of the name.
  have fewer : ∀ {m : Nat} {store : Store}, m < s.stores.length →
      registrations name store.listeners ≤ s.registrationsAt m name →
      (s.setStore m store).registrationsAt n name ≤ s.registrationsAt n name := by
    intro m store there le
    have le : registrations name store.listeners ≤ s.registrationsAt m name + 0 := le
    simpa using registrationsAt_setStore_le there le n
  -- One more registration of the listener that the step names.
  have one_more : ∀ {l known : Listener}, step = .listen l → known.name = l.name →
      (s.setStore s.current ((s.store s.current).register known)).registrationsAt n name ≤
        s.registrationsAt n name + if s.current = n ∧ step.listens name = true then 1 else 0 := by
    rintro l known rfl same
    have le : registrations name ((s.store s.current).register known).listeners ≤
        s.registrationsAt s.current name + if l.name = name then 1 else 0 := by
      simp [registrationsAt, registrations, register, List.countP_append, List.countP_singleton,
        same]
    have le := registrationsAt_setStore_le linked.current le n
    by_cases own : l.name = name <;> simpa [Step.listens, own] using le
  have moves := s.step_moves step
  generalize (s.step step).2 = after at moves ⊢
  cases moves with
  | stays | records | edits | opens => exact Nat.le_add_right _ _
  | @applies m e applied here =>
      have le := fewer (linked.store_lt here)
        (passes_apply e.pending (s.store e.store)).sublist.countP_le
      exact Nat.le_trans le (Nat.le_add_right _ _)
  | uses =>
      rw [useStore_registrationsAt]
      exact Nat.le_add_right _ _
  | listensAgain listen found =>
      exact one_more listen (by simpa using List.find?_some found)
  | listens listen new => exact one_more listen rfl
  | @unlistens other store unlisten off =>
      have less : registrations name store.listeners ≤ s.registrationsAt s.current name := by
        have counted := (unregister_ok off).2.2 name
        unfold registrationsAt
        omega
      exact Nat.le_trans (fewer linked.current less) (Nat.le_add_right _ _)

/-- A step makes no calls, or applies an editor. -/
theorem callsOf_eq_nil_or (s : Session) (step : Step) :
    s.callsOf step = [] ∨ ∃ m e, step.applied? = some m ∧ s.editors[m]? = some e := by
  unfold callsOf
  cases applies : step.applied? with
  | none => exact Or.inl rfl
  | some m =>
      cases here : s.editors[m]? with
      | none => exact Or.inl (by simp [here])
      | some e => exact Or.inr ⟨m, e, rfl, here⟩

theorem step_callsTo_of_idle (idle : s.callsOf step = []) :
    (s.step step).1.callsTo n name = 0 := by
  rw [Reply.callsTo, s.step_events, idle]
  rfl

theorem step_callsTo {m : Nat} {e : Editor} (here : s.editors[m]? = some e)
    (applies : step.applied? = some m) (n : Nat) (name : String) :
    (s.step step).1.callsTo n name = if e.store = n then
      ((s.store e.store).calls e.pending).countP (·.listener.name == name) else 0 := by
  rw [Reply.callsTo, s.step_events, callsOf_of_applied? here applies, List.map_map,
    List.countP_map]
  by_cases same : e.store = n <;> simp [same, Function.comp_def, Call.event]

theorem step_result_eq_error {m : Nat} {e : Editor} (here : s.editors[m]? = some e)
    (applies : step.applied? = some m) (fault : Fault) :
    (s.step step).1.result = .error fault ↔
      ((s.store e.store).apply e.pending).fault = some fault := by
  obtain ⟨result, same⟩ := s.step_of_applied? applies
  rw [same]
  unfold applyEditor
  simp only [here]
  cases ((s.store e.store).apply e.pending).fault <;> simp

theorem step_misses {m : Nat} {e : Editor} (here : s.editors[m]? = some e)
    (applies : step.applied? = some m)
    (fault : ((s.store e.store).apply e.pending).fault = some .notRegistered) {last : Call}
    (at_end : ((s.store e.store).calls e.pending).getLast? = some last) :
    (s.step step).1.misses e.store last.listener.name = true := by
  unfold Reply.misses
  rw [(step_result_eq_error here applies _).mpr fault, s.step_events,
    callsOf_of_applied? here applies, List.getLast?_map, List.getLast?_map, at_end]
  simp [Call.event]

/-- The calls of listeners that leave are paid for by registrations, but for one that ends the step
in a fault. -/
theorem step_calls_le (linked : s.Linked) (introduced : s.Introduced) (step : Step) (n : Nat)
    (leave : ∀ l ∈ s.listeners, l.name = name → l.leaves = true) :
    (s.step step).1.callsTo n name + (s.step step).2.registrationsAt n name ≤
      s.registrationsAt n name + (if s.current = n ∧ step.listens name = true then 1 else 0) +
        if (s.step step).1.misses n name = true then 1 else 0 := by
  have le := step_registrationsAt_le linked step n name
  rcases s.callsOf_eq_nil_or step with idle | ⟨m, e, applies, here⟩
  · rw [step_callsTo_of_idle idle]
    omega
  · rw [step_callsTo here applies]
    by_cases own : e.store = n
    · subst own
      have path := passes_apply e.pending (s.store e.store)
      have count := path.count_name (introduced.store_ofOneName e.store) (fun _ h _ => h)
        fun l hl => leave l (introduced.store_subset e.store hl)
      have after : (s.step step).2.registrationsAt e.store name =
          registrations name ((s.store e.store).apply e.pending).store.listeners := by
        obtain ⟨result, same⟩ := s.step_of_applied? applies
        rw [registrationsAt, same, applyEditor_store here (linked.store_lt here)]
      rw [after, if_pos rfl]
      unfold registrationsAt
      rcases count with paid | ⟨paid, fault, last, at_end, rfl⟩
      · omega
      · rw [if_pos (step_misses here applies fault at_end)]
        omega
    · rw [if_neg own]
      omega

/-- A listener that is not registered is not called by a step, nor is it registered by one that does
not say so. -/
theorem step_of_not_registered (linked : s.Linked)
    (off : s.registrationsAt n name = 0) (silent : ¬(s.current = n ∧ step.listens name = true)) :
    (s.step step).1.callsTo n name = 0 ∧ (s.step step).2.registrationsAt n name = 0 := by
  have le := step_registrationsAt_le linked step n name
  rw [off, if_neg silent] at le
  refine ⟨?_, Nat.le_zero.mp le⟩
  rcases s.callsOf_eq_nil_or step with idle | ⟨m, e, applies, here⟩
  · exact step_callsTo_of_idle idle
  · rw [step_callsTo here applies]
    by_cases own : e.store = n
    · subst own
      rw [if_pos rfl, List.countP_eq_zero]
      intro made member
      have known := (passes_apply e.pending (s.store e.store)).listener_mem made member
      have others := List.countP_eq_zero.mp off
      exact others _ known
    · exact if_neg own

/-- How a call of a listener that is not registered stands among the calls of its step: it is the
last one, of a listener that leaves when it is called, and before it another listener has answered,
and the listener itself was called while it was registered. -/
structure Missed (before : List (Nat × Call)) (told : Nat × Call) (after : List (Nat × Call)) :
    Prop where
  leaves : told.2.listener.leaves = true
  last : after = []
  answered : ∃ earlier ∈ before, earlier.2.writes = true
  called : ∃ earlier ∈ before,
    earlier.2.listener = told.2.listener ∧ earlier.2.registered = true

/-- A call of a listener that is not registered comes about in one way only. -/
theorem missed_of_not_registered (introduced : s.Introduced) {before after : List (Nat × Call)}
    {told : Nat × Call} (split : s.callsOf step = before ++ told :: after)
    (off : told.2.registered = false) : Missed before told after := by
  rcases s.callsOf_eq_nil_or step with idle | ⟨m, e, applies, here⟩
  · simp [idle] at split
  · rw [callsOf_of_applied? here applies, List.map_eq_append_iff] at split
    obtain ⟨first, rest, split, rfl, tail⟩ := split
    obtain ⟨made, last, rfl, rfl, rfl⟩ := List.map_eq_cons_iff.mp tail
    have ofOneName := introduced.store_ofOneName e.store
    obtain ⟨leaves, rfl, -, -⟩ :=
      (passes_apply e.pending (s.store e.store)).missed_last ofOneName (fun _ h _ => h) split off
    obtain ⟨⟨answer, ha, writes⟩, earlier, he, same, on⟩ := earlier_of_missed ofOneName split off
    exact ⟨leaves, rfl, ⟨_, List.mem_map_of_mem ha, writes⟩, _, List.mem_map_of_mem he, same, on⟩

/-- The fault that a listener is not registered comes out of an apply or a commit exactly if the
last of its calls was of a listener that is not registered. -/
theorem step_notRegistered_iff (introduced : s.Introduced) (applies : step.applied?.isSome) :
    (s.step step).1.result = .error .notRegistered ↔
      ∃ told, (s.callsOf step).getLast? = some told ∧ told.2.registered = false := by
  obtain ⟨m, applies⟩ := Option.isSome_iff_exists.mp applies
  cases here : s.editors[m]? with
  | none =>
      have nobody : s.callsOf step = [] := by simp [callsOf, applies, here]
      obtain ⟨result, same⟩ := s.step_of_applied? applies
      rw [same, nobody]
      simp [applyEditor, here, refuse]
  | some e =>
      have path := passes_apply e.pending (s.store e.store)
      rw [step_result_eq_error here applies, callsOf_of_applied? here applies, List.getLast?_map]
      constructor
      · intro fault
        obtain ⟨last, at_end, off⟩ := path.last_of_fault fault
        exact ⟨(e.store, last), by rw [at_end, Option.map_some], off⟩
      · rintro ⟨told, told_last, off⟩
        obtain ⟨last, at_end, rfl⟩ := Option.map_eq_some_iff.mp told_last
        obtain ⟨before, split⟩ := List.getLast?_eq_some_iff.mp at_end
        exact (path.missed_last (introduced.store_ofOneName e.store) (fun _ h _ => h) split
          off).2.2.1

/-! ### A run -/

/-- The steps of a run, each with the session in which it is made. -/
def visits (s : Session) : List Step → List (Session × Step)
  | [] => []
  | step :: rest => (s, step) :: (s.step step).2.visits rest

/-- How many registrations of a name with a store the steps make. -/
def listens (s : Session) (n : Nat) (name : String) (steps : List Step) : Nat :=
  (s.visits steps).countP fun visit => visit.1.current == n && visit.2.listens name

/-- How many calls of a store to listeners of a name the steps lead to. -/
def callsIn (s : Session) (n : Nat) (name : String) (steps : List Step) : Nat :=
  ((s.run steps).1.flatMap (·.events)).countP fun told => told.1 == n && told.2.listener == name

/-- How many steps end in the fault that a listener of a name, called by a store, is not
registered. -/
def missesIn (s : Session) (n : Nat) (name : String) (steps : List Step) : Nat :=
  (s.run steps).1.countP (Reply.misses n name)

section cons
variable (s : Session) (n : Nat) (name : String) (step : Step) (rest : List Step)

theorem listens_cons : s.listens n name (step :: rest) =
    (s.step step).2.listens n name rest +
      if s.current = n ∧ step.listens name = true then 1 else 0 := by
  simp [listens, visits, List.countP_cons]

theorem callsIn_cons : s.callsIn n name (step :: rest) =
    (s.step step).1.callsTo n name + (s.step step).2.callsIn n name rest := by
  rw [callsIn, Session.run, List.flatMap_cons, List.countP_append]
  rfl

theorem missesIn_cons : s.missesIn n name (step :: rest) =
    (s.step step).2.missesIn n name rest +
      if (s.step step).1.misses n name = true then 1 else 0 := by
  simp [missesIn, Session.run, List.countP_cons]

end cons

theorem Introduced.visits (h : s.Introduced) (steps : List Step) :
    ∀ visit ∈ s.visits steps, visit.1.Introduced := by
  induction steps generalizing s with
  | nil => exact List.forall_mem_nil _
  | cons step rest ih => exact List.forall_mem_cons.mpr ⟨h, ih (h.step step)⟩

theorem step_listeners_subset (s : Session) (step : Step) :
    s.listeners ⊆ (s.step step).2.listeners := by
  have moves := s.step_moves step
  generalize (s.step step).2 = after at moves ⊢
  cases moves with
  | listens => exact List.subset_append_left _ _
  | uses =>
      unfold useStore
      repeat' split
      all_goals exact List.Subset.refl _
  | _ => exact List.Subset.refl _

theorem run_listeners_subset (s : Session) (steps : List Step) :
    s.listeners ⊆ (s.run steps).2.listeners :=
  run_keeps (P := fun t => s.listeners ⊆ t.listeners)
    (fun t step _ known => List.Subset.trans known (t.step_listeners_subset step))
    (List.Subset.refl _)

/-- A listener is called no more often than it is registered, apart from the calls that end a step
in a fault. -/
theorem run_calls_le (linked : s.Linked) (introduced : s.Introduced) (steps : List Step)
    (leave : ∀ l ∈ (s.run steps).2.listeners, l.name = name → l.leaves = true) :
    s.callsIn n name steps + (s.run steps).2.registrationsAt n name ≤
      s.registrationsAt n name + s.listens n name steps + s.missesIn n name steps := by
  induction steps generalizing s with
  | nil => exact Nat.le_of_eq (Nat.zero_add _)
  | cons step rest ih =>
      have first := step_calls_le linked introduced step n fun l hl =>
        leave l (s.run_listeners_subset (step :: rest) hl)
      have later := ih (linked.step step) (introduced.step step) leave
      rw [callsIn_cons, listens_cons, missesIn_cons, run_cons]
      omega

theorem run_of_not_registered (linked : s.Linked) (steps : List Step)
    (off : s.registrationsAt n name = 0) (silent : s.listens n name steps = 0) :
    s.callsIn n name steps = 0 := by
  induction steps generalizing s with
  | nil => rfl
  | cons step rest ih =>
      rw [listens_cons, Nat.add_eq_zero_iff] at silent
      have quiet : ¬(s.current = n ∧ step.listens name = true) := by
        intro registers
        rw [if_pos registers] at silent
        exact absurd silent.2 Nat.one_ne_zero
      obtain ⟨none, still_off⟩ := step_of_not_registered linked off quiet
      rw [callsIn_cons, none, ih (linked.step step) still_off silent.1]

/-- In a run, a call of a listener that is not registered is the last of its step and of a listener
that leaves, which was called earlier in the step while it was registered, and another listener has
answered there; the fault that it is not registered comes out of an apply or a commit in this case
only.  Once a listener has no registration left, the later steps do not call it before one of them
registers it.  A listener that leaves is called at most as often as it is registered, apart from the
calls that end in that fault, and what is left of its registrations counts as well. -/
theorem run_calls_registered (initial : Contents) (steps : List Step) :
    (∀ visit ∈ (start initial).visits steps,
      (visit.1.step visit.2).1.events =
          (visit.1.callsOf visit.2).map (fun told => (told.1, told.2.event)) ∧
        (∀ before told after, visit.1.callsOf visit.2 = before ++ told :: after →
          told.2.registered = false → Missed before told after) ∧
        (visit.2.applied?.isSome → ((visit.1.step visit.2).1.result = .error .notRegistered ↔
          ∃ told, (visit.1.callsOf visit.2).getLast? = some told ∧ told.2.registered = false))) ∧
    (∀ first later, steps = first ++ later → ∀ n name,
      ((start initial).run first).2.registrationsAt n name = 0 →
        ((start initial).run first).2.listens n name later = 0 →
          ((start initial).run first).2.callsIn n name later = 0) ∧
    ∀ n name,
      (∀ l ∈ ((start initial).run steps).2.listeners, l.name = name → l.leaves = true) →
        (start initial).callsIn n name steps +
            ((start initial).run steps).2.registrationsAt n name ≤
          (start initial).listens n name steps + (start initial).missesIn n name steps := by
  refine ⟨fun visit member => ⟨visit.1.step_events visit.2, ?_, ?_⟩, ?_, ?_⟩
  · exact fun before told after split off =>
      missed_of_not_registered ((introduced_start initial).visits steps visit member) split off
  · exact step_notRegistered_iff ((introduced_start initial).visits steps visit member)
  · rintro first later rfl n name off silent
    exact run_of_not_registered (linked_run initial first) later off silent
  · intro n name leave
    have bound :=
      run_calls_le (linked_start initial) (introduced_start initial) steps (n := n) leave
    have none : (start initial).registrationsAt n name = 0 := by
      cases n <;> simp [registrationsAt, registrations, start, Session.store]
    rwa [none, Nat.zero_add] at bound

/-- A session in which one listener answers a key by writing under another, and one after it leaves
when it is called; an editor is about to put the key. -/
def answering : Session :=
  ((start []).run [.listen ⟨"writer", .put (.text "k") (.text "m") (.int 1)⟩,
    .listen ⟨"leaver", .once⟩, .edit, .put 0 .int (.text "k") (.int 5)]).2

/-- A listener is called, and asks to leave, though it is not registered any longer: it is called
twice for one registration, and the apply ends with the fault. -/
theorem called_unregistered :
    answering.registrationsAt 0 "leaver" = 1 ∧
      (answering.step (.apply 0)).1.callsTo 0 "leaver" = 2 ∧
      (answering.step (.apply 0)).1.result = .error .notRegistered ∧
      (answering.callsOf (.apply 0)).map (fun told => (told.2.listener.name, told.2.registered)) =
        [("writer", true), ("writer", true), ("leaver", true), ("leaver", false)] := by
  have calls : (answering.callsOf (.apply 0)).map
      (fun told => (told.2.listener.name, told.2.registered)) =
        [("writer", true), ("writer", true), ("leaver", true), ("leaver", false)] := by
    decide +kernel
  have at_end := congrArg List.getLast? calls
  rw [List.getLast?_map] at at_end
  obtain ⟨told, at_end, same⟩ := Option.map_eq_some_iff.mp at_end
  have off : told.2.registered = false := congrArg Prod.snd same
  have failed := (step_notRegistered_iff (introduced_run [] _) rfl).mpr ⟨told, at_end, off⟩
  exact ⟨by decide +kernel, by decide +kernel, failed, calls⟩

end Session

end Preferences.Store

import Preferences.Proofs.Store.BatchRun
import Preferences.Proofs.Store.Calls
import Preferences.Proofs.Store.Keyed

/-! # What is done to a store

A `Deed` is something that is done to the contents of a store: they are cleared, or an operation is
performed.  The deeds of a batch are what a run of it gets done (`Batch.run_contents`), and those of
an apply are the deeds of its batch and then, call by call, those of the listeners that answer with
a change (`apply_contents`): what the store holds afterwards is what they make of its contents, one
after the other.  Under a key stands what the last deed that concerns it has left
(`get?_replay`). -/

namespace Preferences.Store

/-- Something that is done to the contents of a store. -/
inductive Deed
  | clear
  | operation (o : Operation)
  deriving DecidableEq

namespace Deed

/-- The contents with the deed done. -/
def act (c : Contents) : Deed → Contents
  | clear => []
  | operation o => o.act c

def concerns (key : Value) : Deed → Bool
  | clear => true
  | operation o => o.key.same key

/-- What the deed leaves under the keys that it concerns. -/
def value? : Deed → Option Value
  | clear => none
  | operation o => o.value?

end Deed

def replay (deeds : List Deed) (c : Contents) : Contents := deeds.foldl Deed.act c

/-- The last of the deeds that concern a key. -/
def lastOn? (key : Value) (deeds : List Deed) : Option Deed :=
  (deeds.filter (·.concerns key)).getLast?

/-! ### Deeds one after the other -/

theorem replay_append (first second : List Deed) (c : Contents) :
    replay (first ++ second) c = replay second (replay first c) := List.foldl_append

theorem lastOn?_concat (key : Value) (deeds : List Deed) (deed : Deed) :
    lastOn? key (deeds ++ [deed]) =
      if deed.concerns key then some deed else lastOn? key deeds := by
  unfold lastOn?
  by_cases h : deed.concerns key = true <;> simp [h]

/-- The operations of the deeds have proper keys. -/
def ProperKeys (deeds : List Deed) : Prop := ∀ o, .operation o ∈ deeds → o.key.ProperKey

section replay
variable {deeds : List Deed} {c : Contents} {key : Value}

theorem Deed.keyed_act {deed : Deed} (keyed : c.Keyed)
    (proper : ∀ o, deed = .operation o → o.key.ProperKey) : (deed.act c).Keyed := by
  cases deed with
  | clear => exact Table.keyed_nil
  | operation o =>
      cases o with
      | put other value => exact keyed.put value (proper _ rfl)
      | remove other => exact keyed.remove other

theorem Deed.get?_act (deed : Deed) (keyed : c.Keyed)
    (proper : ∀ o, deed = .operation o → o.key.ProperKey) (hk : key.ProperKey) :
    (deed.act c).get? key = if deed.concerns key then deed.value? else c.get? key := by
  cases deed with
  | clear => rfl
  | operation o =>
      cases o with
      | put other value => exact keyed.get?_put value (proper _ rfl) hk
      | remove other => exact keyed.get?_remove (proper _ rfl) hk

theorem keyed_replay (keyed : c.Keyed) (proper : ProperKeys deeds) : (replay deeds c).Keyed := by
  induction deeds using List.reverseRecOn with
  | nil => exact keyed
  | append_singleton deeds deed ih =>
      rw [replay_append]
      refine Deed.keyed_act (ih fun o h => proper o (List.mem_append_left _ h)) fun o h => ?_
      exact proper o (h ▸ List.mem_append_right _ (List.mem_singleton_self _))

/-- Under a key stands what the last deed on it has left, or else what was there before. -/
theorem get?_replay (keyed : c.Keyed) (proper : ProperKeys deeds) (hk : key.ProperKey) :
    (replay deeds c).get? key = ((lastOn? key deeds).map Deed.value?).getD (c.get? key) := by
  induction deeds using List.reverseRecOn with
  | nil => rfl
  | append_singleton deeds deed ih =>
      have before : ProperKeys deeds := fun o h => proper o (List.mem_append_left _ h)
      have act := Deed.get?_act deed (keyed_replay keyed before)
        (fun o h => proper o (h ▸ List.mem_append_right _ (List.mem_singleton_self _))) hk
      rw [replay_append, lastOn?_concat]
      refine act.trans ?_
      by_cases h : deed.concerns key = true
      · rw [if_pos h, if_pos h]
        rfl
      · rw [if_neg h, if_neg h, ih before]

end replay

/-! ### The deeds of a batch -/

/-- The operations that are performed, as far as they can be. -/
def performed : Contents → List Operation → List Operation
  | _, [] => []
  | c, operation :: rest =>
    match operation.perform c with
    | .ok after => operation :: performed after rest
    | .error _ => []

/-- What the batch does to some contents.  An operation on what can be no key does nothing, even
where it is performed, which is on no contents at all. -/
def Batch.deeds (b : Batch) (c : Contents) : List Deed :=
  (if b.clears then [.clear] else []) ++
    ((performed (b.start c).contents b.operations).filter (·.key.isKey)).map .operation

theorem mem_of_mem_performed {operation : Operation} {operations : List Operation} {c : Contents}
    (h : operation ∈ performed c operations) : operation ∈ operations := by
  induction operations generalizing c with
  | nil => exact h
  | cons first rest ih =>
      unfold performed at h
      split at h
      · rcases List.mem_cons.mp h with rfl | h
        · exact List.mem_cons_self
        · exact List.mem_cons_of_mem _ (ih h)
      · cases h

/-- An operation that is performed acts on the contents, or there is nothing that it could do. -/
theorem Operation.replay_of_perform {operation : Operation} {c after : Contents}
    (h : operation.perform c = .ok after) :
    after = replay (([operation].filter (·.key.isKey)).map .operation) c := by
  cases operation with
  | put key value =>
      simp only [perform] at h
      split_ifs at h with good
      obtain rfl := Except.ok.inj h
      simp [Operation.key, good, replay, Deed.act, act]
  | remove key =>
      simp only [perform] at h
      split_ifs at h with free
      obtain rfl := Except.ok.inj h
      cases good : key.isKey with
      | true => simp [Operation.key, good, replay, Deed.act, act]
      | false =>
          have nothing : c = [] := by simpa [good] using free
          subst nothing
          simp [Operation.key, good, replay, Table.remove]

theorem foldl_perform_contents (operations : List Operation) {change : Change}
    (going : change.misuse = none) : (operations.foldl Change.perform change).contents =
      replay (((performed change.contents operations).filter (·.key.isKey)).map .operation)
        change.contents := by
  induction operations generalizing change with
  | nil => rfl
  | cons operation rest ih =>
      rw [List.foldl_cons]
      unfold performed
      cases done : operation.perform change.contents with
      | ok after =>
          have next : change.perform operation =
              { contents := after, announced := announce operation.key change.announced } := by
            simp [Change.perform, going, done]
          have split : (operation :: performed after rest) =
              [operation] ++ performed after rest := rfl
          dsimp only
          rw [next, ih rfl, split, List.filter_append, List.map_append, replay_append,
            ← Operation.replay_of_perform done]
      | error misuse =>
          have stop : change.perform operation = { change with misuse := some misuse } := by
            simp [Change.perform, going, done]
          rw [stop, Batch.foldl_perform_of_misuse rfl]
          rfl

/-- A run of a batch makes of the contents what its deeds make of them. -/
theorem Batch.run_contents (b : Batch) (c : Contents) :
    (b.run c).contents = replay (b.deeds c) c := by
  have begins : (b.start c).contents = replay (if b.clears then [.clear] else []) c := by
    unfold Batch.start
    split_ifs <;> rfl
  have rest := foldl_perform_contents b.operations (b.start_misuse c)
  unfold Batch.deeds
  rw [replay_append, ← begins]
  exact rest

theorem Batch.mem_of_mem_deeds {b : Batch} {c : Contents} {o : Operation}
    (h : .operation o ∈ b.deeds c) : o ∈ b.operations ∧ o.key.isKey = true := by
  unfold Batch.deeds at h
  rcases List.mem_append.mp h with h | h
  · split_ifs at h <;> simp at h
  · obtain ⟨o', ho, same⟩ := List.mem_map.mp h
    obtain rfl := Deed.operation.inj same
    obtain ⟨ho, isKey⟩ := List.mem_filter.mp ho
    exact ⟨mem_of_mem_performed ho, isKey⟩

/-! ### The deeds of an apply -/

/-- The change that a call of the listener is answered with, if there is one. -/
def Call.answer? (call : Call) : Option Operation :=
  match call.listener.reaction with
  | .put trigger target number =>
    if call.key.same trigger then (Kind.int.write target number).toOption else none
  | _ => none

/-- What the listener does when it is called. -/
def Call.deeds (call : Call) : List Deed :=
  match call.answer? with
  | some operation => Batch.deeds { operations := [operation] } call.store.contents
  | none => []

/-- The calls that are answered: all, but for the last one where the listeners answer each other
without end. -/
def answered (fault : Option Fault) (calls : List Call) : List Call :=
  match fault with
  | some .endless => calls.dropLast
  | _ => calls

/-- What is done in an apply: first by its batch, and then by the listeners. -/
def deeds (b : Batch) (s : Store) : List Deed :=
  b.deeds s.contents ++ (answered (s.apply b).fault (s.calls b)).flatMap Call.deeds

/-- What the course has done to the contents is what its calls tell. -/
structure Course.Tells (c : Course) (s : Store) (calls : List Call) : Prop where
  contents : c.store.contents = replay ((answered c.fault calls).flatMap Call.deeds) s.contents
  called : c.fault = some .endless → calls ≠ []

section tells
variable {s : Store} {c : Course} {calls : List Call}

theorem answered_append (fault : Option Fault) (first : List Call) {second : List Call}
    (called : fault = some .endless → second ≠ []) :
    answered fault (first ++ second) = first ++ answered fault second := by
  unfold answered
  split
  · exact List.dropLast_append_of_ne_nil (called rfl)
  · rfl

theorem Course.Tells.done (s : Store) : Course.Tells { store := s } s [] := ⟨rfl, nofun⟩

theorem Course.Tells.andThen {next : Store → Course} {later : List Call}
    (first : c.Tells s calls)
    (second : c.fault = none → (next c.store).Tells c.store later) :
    (c.andThen next).Tells s (calls ++ if c.fault.isNone then later else []) := by
  cases ended : c.fault with
  | some fault =>
      have same : c.andThen next = c := by simp [Course.andThen, ended]
      rw [same]
      simpa using first
  | none =>
      have going : c.andThen next =
          { next c.store with events := c.events ++ (next c.store).events } := by
        simp [Course.andThen, ended]
      have second := second ended
      have first : c.store.contents = replay (calls.flatMap Call.deeds) s.contents := by
        rw [first.contents, ended]
        rfl
      rw [going]
      refine ⟨?_, fun ends => ?_⟩
      · show (next c.store).store.contents = _
        rw [second.contents, first, ← replay_append]
        simp [answered_append _ _ second.called]
      · simp [second.called ends]

theorem tells_forEach {α : Type} {act : α → Store → Course} {calls : α → Store → List Call}
    (one : ∀ item s, (act item s).Tells s (calls item s)) (items : List α) (s : Store) :
    (Course.forEach act items s).Tells s (callsForEach act calls items s) := by
  induction items generalizing s with
  | nil => exact .done s
  | cons item rest ih =>
      rw [Course.forEach_cons]
      exact (one item s).andThen fun _ => ih _

theorem react_of_answer? (change : Batch → Store → Course)
    (within : Batch → Store → List Call) {l : Listener} {key : Value} {o : Operation}
    (h : (⟨l, key, s⟩ : Call).answer? = some o) :
    react change l key s = change { operations := [o] } s ∧
      callsOfReaction within l key s = within { operations := [o] } s := by
  unfold Call.answer? at h
  unfold react callsOfReaction
  split at h
  · next reaction =>
      dsimp only at reaction h
      split_ifs at h with triggers
      cases written : Kind.int.write _ _ with
      | ok o' =>
          rw [written] at h
          obtain rfl := Option.some.inj h
          simp [reaction, triggers, written]
      | error misuse =>
          rw [written] at h
          cases h
  · cases h

theorem react_of_answer?_eq_none (change : Batch → Store → Course)
    (within : Batch → Store → List Call) {l : Listener} {key : Value}
    (h : (⟨l, key, s⟩ : Call).answer? = none) :
    callsOfReaction within l key s = [] ∧ (react change l key s).store.contents = s.contents ∧
      (react change l key s).fault ≠ some .endless := by
  unfold Call.answer? at h
  unfold react callsOfReaction
  cases reaction : l.reaction with
  | log => simp
  | raise trigger =>
      dsimp only
      split_ifs <;> simp [Course.failed]
  | once =>
      dsimp only
      rw [unregister_eq]
      split_ifs <;> simp [Course.failed]
  | put trigger target number =>
      simp only [reaction] at h
      dsimp only
      split_ifs at h ⊢
      · cases written : Kind.int.write target number with
        | ok o =>
            rw [written] at h
            cases h
        | error misuse => simp [Course.failed]
      · simp

variable {change : Batch → Store → Course} {within : Batch → Store → List Call}

/-- A change either is not made, since there are too many within each other, or does what its batch
does and what its calls tell. -/
def Accounts (change : Batch → Store → Course) (within : Batch → Store → List Call) : Prop :=
  ∀ b s, change b s = .failed s .endless ∧ within b s = [] ∨
    (change b s).Tells { s with contents := (b.run s.contents).contents } (within b s)

theorem Accounts.call (h : Accounts change within) (key : Value) (l : Listener) (s : Store) :
    (call change key l s).Tells s (callsOfCall within key l s) := by
  by_cases isKey : key.isKey = true
  · rw [call_of_isKey change isKey, callsOfCall, if_pos isKey]
    cases answer : (⟨l, key, s⟩ : Call).answer? with
    | none =>
        obtain ⟨none, same, ends⟩ := react_of_answer?_eq_none change within answer
        rw [none]
        refine ⟨?_, fun _ => List.cons_ne_nil _ _⟩
        have all : answered (react change l key s).fault [⟨l, key, s⟩] = [⟨l, key, s⟩] := by
          unfold answered
          split
          · next without_end => exact absurd without_end ends
          · rfl
        show (react change l key s).store.contents =
          replay ((answered (react change l key s).fault [⟨l, key, s⟩]).flatMap Call.deeds) _
        rw [all, same]
        simp [Call.deeds, answer, replay]
    | some o =>
        obtain ⟨reacts, calls⟩ := react_of_answer? change within answer
        rw [reacts, calls]
        refine ⟨?_, fun _ => List.cons_ne_nil _ _⟩
        show (change { operations := [o] } s).store.contents = replay ((answered
          (change { operations := [o] } s).fault (⟨l, key, s⟩ :: _)).flatMap Call.deeds) _
        rcases h { operations := [o] } s with ⟨cut, none⟩ | tells
        · rw [cut, none]
          rfl
        · have own : (⟨l, key, s⟩ : Call).deeds =
              Batch.deeds { operations := [o] } s.contents := by simp [Call.deeds, answer]
          have split := answered_append _ [⟨l, key, s⟩] tells.called
          rw [List.singleton_append] at split
          rw [split, List.singleton_append, List.flatMap_cons, replay_append, own,
            ← Batch.run_contents, tells.contents]
  · rw [Store.call, if_neg isKey, callsOfCall, if_neg isKey]
    exact ⟨rfl, fun ends => by cases ends⟩

theorem Accounts.tell (h : Accounts change within) (key : Value) (s : Store) :
    (tell change key s).Tells s (callsOfTurn change within key s) :=
  tells_forEach (fun l s => h.call key l s) s.listeners s

end tells

theorem Accounts.applyWithin_succ {depth : Nat}
    (h : Accounts (applyWithin depth) (callsWithin depth)) (b : Batch) (s : Store) :
    (applyWithin (depth + 1) b s).Tells { s with contents := (b.run s.contents).contents }
      (callsWithin (depth + 1) b s) := by
  cases stops : (b.run s.contents).misuse with
  | some misuse =>
      rw [applyWithin_of_misuse depth stops, callsWithin_of_misuse depth stops]
      exact ⟨rfl, nofun⟩
  | none =>
      rw [applyWithin_of_clean depth stops, callsWithin_of_clean depth stops]
      exact tells_forEach (fun key s => h.tell key s) _ _

theorem accounts_applyWithin (depth : Nat) :
    Accounts (applyWithin depth) (callsWithin depth) := by
  induction depth with
  | zero => exact fun b s => Or.inl ⟨rfl, rfl⟩
  | succ depth ih => exact fun b s => Or.inr (ih.applyWithin_succ b s)

theorem apply_contents (b : Batch) (s : Store) :
    (s.apply b).store.contents = replay (s.deeds b) s.contents := by
  unfold deeds
  rw [replay_append, ← Batch.run_contents]
  exact ((accounts_applyWithin _).applyWithin_succ b s).contents

/-- The operation is the one that the listener answers with. -/
def Listener.Answers (l : Listener) (o : Operation) : Prop :=
  ∃ trigger target number, l.reaction = .put trigger target number ∧
    Kind.int.write target number = .ok o

theorem Call.answers_of_answer? {call : Call} {o : Operation} (h : call.answer? = some o) :
    call.listener.Answers o := by
  unfold Call.answer? at h
  split at h
  · next trigger target number reaction =>
      split_ifs at h
      cases written : Kind.int.write target number with
      | ok o' =>
          rw [written] at h
          exact ⟨trigger, target, number, reaction, written.trans (congrArg _ (Option.some.inj h))⟩
      | error misuse =>
          rw [written] at h
          cases h
  · cases h

/-- An operation among the deeds of an apply is on a key, and comes from its batch or is the answer
of a registered listener. -/
theorem mem_of_mem_deeds {b : Batch} {s : Store} {o : Operation} (h : .operation o ∈ s.deeds b) :
    o.key.isKey = true ∧ (o ∈ b.operations ∨ ∃ l ∈ s.listeners, l.Answers o) := by
  unfold deeds at h
  rcases List.mem_append.mp h with h | h
  · obtain ⟨ho, isKey⟩ := Batch.mem_of_mem_deeds h
    exact ⟨isKey, Or.inl ho⟩
  · obtain ⟨made, answered, hd⟩ := List.mem_flatMap.mp h
    have hm : made ∈ s.calls b := by
      unfold Store.answered at answered
      split at answered
      · exact (List.dropLast_sublist _).subset answered
      · exact answered
    unfold Call.deeds at hd
    split at hd
    · next o' answer =>
        obtain ⟨ho, isKey⟩ := Batch.mem_of_mem_deeds hd
        obtain rfl := List.mem_singleton.mp ho
        refine ⟨isKey, Or.inr ⟨made.listener, ?_, Call.answers_of_answer? answer⟩⟩
        exact (passes_apply b s).listener_mem made hm
    · cases hd

end Preferences.Store

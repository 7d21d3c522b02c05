import Preferences.Proofs.Store.Names
import Preferences.Proofs.Store.Outcome
import Preferences.Proofs.Store.Turns

/-! # What listeners are told

Where listeners only take note, or leave when they are called, an apply makes exactly the calls that
are due (`due`): the first key that it announces is told to every listener, and each later key to
those that stay.  It announces what the batch touches (`Batch.touched`, `announced_run`): all keys
that it clears, and then every other key of an operation, once each.  So what has changed is always
announced (`any_same_touched`), and whoever is called finds the batch done
(`step_apply_delivers`). -/

namespace Preferences

namespace Table

/-- Every key can be one, and none counts as the same as another. -/
structure Proper (t : Table) : Prop where
  isKey : ∀ key ∈ t.keys, key.isKey = true
  distinct : t.keys.Pairwise fun key other => key.same other = false

theorem TextKeyed.proper {t : Table} (keyed : t.TextKeyed) : t.Proper := by
  refine ⟨fun key h => Value.isKey_of_isText (keyed.texts key h), ?_⟩
  refine keyed.nodup.imp_of_mem ?_
  intro key other _ ho ne
  rw [Value.same_eq_decide (keyed.texts other ho), decide_eq_false ne]

section others
variable {key other : Value} (value : Value) (t : Table)

theorem get?_put_of_ne (hk : key.isText = true) (ne : key ≠ other) :
    (t.put key value).get? other = t.get? other := by
  have not_same : key.same other = false := by
    rw [Value.same_eq_decide_left hk, decide_eq_false ne]
  induction t with
  | nil =>
      unfold put
      rw [get?_cons, not_same]
      rfl
  | cons entry rest ih =>
      unfold put
      rw [Value.same_eq_decide hk]
      by_cases h : entry.1 = key
      · simp [get?_cons, h, not_same]
      · simp [get?_cons, h, ih]

theorem get?_remove_of_ne (hk : key.isText = true) (ne : key ≠ other) :
    (t.remove key).get? other = t.get? other := by
  have not_same : key.same other = false := by
    rw [Value.same_eq_decide_left hk, decide_eq_false ne]
  induction t with
  | nil => rfl
  | cons entry rest ih =>
      rw [remove_cons, Value.same_eq_decide hk]
      by_cases h : entry.1 = key
      · simp [get?_cons, h, not_same]
      · simp [get?_cons, h, ih]

end others

/-- A key is found only if one of the keys is the same. -/
theorem any_same_keys_of_get?_ne_none {t : Table} {key : Value} (h : t.get? key ≠ none) :
    t.keys.any (·.same key) = true := by
  rw [← Option.isSome_iff_ne_none, ← holds_eq_isSome_get?] at h
  rw [← h, keys, List.any_map]
  rfl

end Table

namespace Store

/-! ### The announced keys -/

namespace Batch

/-- The keys that are there before and that the batch clears. -/
def cleared (b : Batch) (before : Contents) : List Value := if b.clears then before.keys else []

/-- The keys that the batch touches: those that it clears, and then every other key that an
operation is about, in the order of the first operations. -/
def touched (b : Batch) (before : Contents) : List Value :=
  b.cleared before ++ ((b.operations.map Operation.key).filter (· ∉ b.cleared before)).eraseDups

section touched
variable {b : Batch} {before : Contents}

theorem mem_touched {key : Value} :
    key ∈ b.touched before ↔ key ∈ b.cleared before ∨ ∃ o ∈ b.operations, o.key = key := by
  unfold touched
  rw [List.mem_append, List.mem_eraseDups, List.mem_filter, List.mem_map, decide_eq_true_eq]
  tauto

theorem touched_record (operation : Operation) :
    (b.record operation).touched before =
      if operation.key ∈ b.touched before then b.touched before
      else b.touched before ++ [operation.key] := by
  have cleared : (b.record operation).cleared before = b.cleared before := rfl
  have split : (b.record operation).touched before =
      b.cleared before ++ ((b.operations.map Operation.key).filter (· ∉ b.cleared before) ++
        [operation.key].filter (· ∉ b.cleared before)).eraseDups := by
    unfold touched
    rw [cleared, record_operations, List.map_append, List.filter_append, List.map_singleton]
  rw [split, List.eraseDups_append, ← List.append_assoc]
  change b.touched before ++ _ = _
  by_cases old : operation.key ∈ b.cleared before
  · rw [if_pos (mem_touched.mpr (Or.inl old))]
    simp [old]
  · by_cases again : ∃ o ∈ b.operations, o.key = operation.key
    · rw [if_pos (mem_touched.mpr (Or.inr again))]
      simp [old, again, List.removeAll]
    · rw [if_neg fun h => (mem_touched.mp h).elim old again]
      simp [old, again, List.removeAll, List.eraseDups_cons]

/-- A batch announces what it touches. -/
theorem announced_run (texts : ∀ o ∈ b.operations, o.key.isText = true) :
    (b.run before).announced = b.touched before := by
  induction b using record_induction with
  | start clears => cases clears <;> simp [run, start, touched, cleared]
  | record b operation ih =>
      obtain ⟨others, text⟩ := (b.forall_mem_record operation).mp texts
      have keys : ∀ o ∈ b.operations, o.key.isKey = true := fun o ho =>
        Value.isKey_of_isText (others o ho)
      have clean := (run_of_isKey keys before).1
      have done := Operation.perform_of_not_blocked
        (Operation.not_blocked_of_isKey (Value.isKey_of_isText text) (b.run before).contents)
      have among : (b.touched before).any (·.same operation.key) =
          decide (operation.key ∈ b.touched before) := by
        simp [Value.same_eq_decide text, List.any_eq]
      rw [run_record, Change.perform, clean]
      dsimp only
      rw [done]
      dsimp only
      rw [ih others, touched_record, announce, among]
      simp only [decide_eq_true_eq]

theorem touched_pairwise (proper : before.Proper)
    (texts : ∀ o ∈ b.operations, o.key.isText = true) :
    (b.touched before).Pairwise fun key other => key.same other = false := by
  induction b using record_induction with
  | start clears =>
      cases clears
      · simp [touched, cleared]
      · simpa [touched, cleared] using proper.distinct
  | record b operation ih =>
      obtain ⟨others, text⟩ := (b.forall_mem_record operation).mp texts
      rw [touched_record]
      split_ifs with old
      · exact ih others
      · refine List.pairwise_append.mpr ⟨ih others, List.pairwise_singleton _ _, ?_⟩
        intro key hk last hl
        rw [List.mem_singleton.mp hl, Value.same_eq_decide text]
        exact decide_eq_false fun same => old (same ▸ hk)

/-- What is found under a key differs afterwards only if the key is touched. -/
theorem any_same_touched (texts : ∀ o ∈ b.operations, o.key.isText = true) {key : Value}
    (differs : (b.outcome before).get? key ≠ before.get? key) :
    (b.touched before).any (·.same key) = true := by
  induction b using record_induction with
  | start clears =>
      cases clears with
      | false => exact absurd rfl differs
      | true =>
          have found : before.get? key ≠ none := fun nothing => differs nothing.symm
          have among := Table.any_same_keys_of_get?_ne_none found
          simpa [touched, cleared] using among
  | record b operation ih =>
      obtain ⟨others, text⟩ := (b.forall_mem_record operation).mp texts
      by_cases own : operation.key = key
      · refine List.any_eq_true.mpr ⟨operation.key, mem_touched.mpr (Or.inr ?_), ?_⟩
        · exact ⟨operation, by simp [record_operations], rfl⟩
        · rw [Value.same_eq_decide_left text, decide_eq_true own]
      · have same : (operation.act (b.outcome before)).get? key = (b.outcome before).get? key := by
          cases operation with
          | put other value => exact Table.get?_put_of_ne value _ text own
          | remove other => exact Table.get?_remove_of_ne _ text own
        rw [outcome_record, same] at differs
        obtain ⟨other, member, alike⟩ := List.any_eq_true.mp (ih others differs)
        refine List.any_eq_true.mpr ⟨other, ?_, alike⟩
        rw [touched_record]
        split_ifs
        · exact member
        · exact List.mem_append_left _ member

end touched

end Batch

/-! ### The calls that are due -/

/-- The listener only takes note, or leaves when it is called. -/
def Listener.Plain (l : Listener) : Prop := l.reaction = .log ∨ l.reaction = .once

def staying (listeners : List Listener) : List Listener := listeners.filter (!·.leaves)

/-- What is noted when a listener is told of a key. -/
def told (held : Contents) (key : Value) (l : Listener) : Event := ⟨l.name, key, held.holds key⟩

/-- What is noted when all are told of the first key, and those that stay of the later ones. -/
def due (listeners : List Listener) (held : Contents) : List Value → List Event
  | [] => []
  | first :: later =>
    listeners.map (told held first) ++
      later.flatMap fun key => (staying listeners).map (told held key)

section plain
variable {change : Batch → Store → Course} {c : Contents} {listeners : List Listener}

theorem staying_cons_of_leaves {l : Listener} (leaves : l.leaves = true) (rest : List Listener) :
    staying (l :: rest) = staying rest := by
  simp [staying, leaves]

theorem staying_cons_of_stays {l : Listener} (stays : l.leaves = false) (rest : List Listener) :
    staying (l :: rest) = l :: staying rest := by
  simp [staying, stays]

theorem staying_staying (listeners : List Listener) :
    staying (staying listeners) = staying listeners := by
  simp [staying, List.filter_filter]

/-- A turn of a key, when those that have been called and stay stand before those still to come. -/
theorem turn_of_plain {key : Value} (hk : key.isKey = true) {stayed waiting : List Listener}
    (ofOneName : OfOneName (stayed ++ waiting)) (stay : ∀ l ∈ stayed, l.leaves = false)
    (plain : ∀ l ∈ waiting, l.Plain) :
    Course.forEach (call change key) waiting ⟨c, stayed ++ waiting⟩ =
      { store := ⟨c, stayed ++ staying waiting⟩, events := waiting.map (told c key) } := by
  induction waiting generalizing stayed with
  | nil => rfl
  | cons l waiting ih =>
      have plain' : ∀ l ∈ waiting, l.Plain := fun l' h => plain l' (List.mem_cons_of_mem _ h)
      rw [Course.forEach_cons, call_of_isKey change hk]
      rcases plain l List.mem_cons_self with log | once
      · have stays : l.leaves = false := by simp [Listener.leaves, log]
        have later := @ih (stayed ++ [l]) (by simpa using ofOneName)
          (by simpa using fun l' h => h.elim (stay l') (· ▸ stays)) plain'
        rw [List.append_assoc, List.singleton_append] at later
        simp only [react, log, Course.called, Course.andThen, later]
        simp [staying_cons_of_stays stays, told, Call.event]
      · have leaves : l.leaves = true := by simp [Listener.leaves, once]
        -- No listener before it has its name, so its first registration is the one that is called.
        have others : ∀ l' ∈ stayed, ¬(l'.name == l.name) = true := by
          intro l' h same
          have equal := ofOneName l' (by simp [h]) l (by simp) (beq_iff_eq.mp same)
          rw [← equal, stay l' h] at leaves
          cases leaves
        have off : unregister l.name ⟨c, stayed ++ l :: waiting⟩ = .ok ⟨c, stayed ++ waiting⟩ := by
          rw [unregister_eq, if_pos (by simp)]
          simp [List.eraseP_append_right _ others]
        have later := @ih stayed (ofOneName.mono (by simp)) stay plain'
        simp only [react, once, off, Course.called, Course.andThen, later]
        simp [staying_cons_of_leaves leaves, told, Call.event]

theorem tell_of_plain {key : Value} (hk : key.isKey = true) (ofOneName : OfOneName listeners)
    (plain : ∀ l ∈ listeners, l.Plain) :
    tell change key ⟨c, listeners⟩ =
      { store := ⟨c, staying listeners⟩, events := listeners.map (told c key) } :=
  @turn_of_plain change c key hk [] listeners ofOneName (fun _ h => absurd h List.not_mem_nil) plain

/-- When those that leave have left, every key is told to all listeners. -/
theorem tell_all_of_staying {keys : List Value} (isKey : ∀ key ∈ keys, key.isKey = true)
    (ofOneName : OfOneName listeners) (plain : ∀ l ∈ listeners, l.Plain)
    (stay : staying listeners = listeners) :
    Course.forEach (tell change) keys ⟨c, listeners⟩ =
      { store := ⟨c, listeners⟩
        events := keys.flatMap fun key => listeners.map (told c key) } := by
  induction keys with
  | nil => rfl
  | cons key keys ih =>
      have later := ih fun key' h => isKey key' (List.mem_cons_of_mem _ h)
      rw [Course.forEach_cons, tell_of_plain (isKey key List.mem_cons_self) ofOneName plain, stay]
      simp [Course.andThen, later]

/-- The keys are told as it is due. -/
theorem tell_all_of_plain {keys : List Value} (isKey : ∀ key ∈ keys, key.isKey = true)
    (ofOneName : OfOneName listeners) (plain : ∀ l ∈ listeners, l.Plain) :
    Course.forEach (tell change) keys ⟨c, listeners⟩ =
      { store := ⟨c, if keys = [] then listeners else staying listeners⟩
        events := due listeners c keys } := by
  cases keys with
  | nil => rfl
  | cons key keys =>
      have remain : staying listeners ⊆ listeners := List.filter_sublist.subset
      have later := @tell_all_of_staying change c (staying listeners) keys
        (fun key' h => isKey key' (List.mem_cons_of_mem _ h)) (ofOneName.mono remain)
        (fun l h => plain l (remain h)) (staying_staying listeners)
      rw [Course.forEach_cons, tell_of_plain (isKey key List.mem_cons_self) ofOneName plain]
      simp [Course.andThen, later, due]

/-- What an apply does where the listeners are plain. -/
theorem apply_of_plain {b : Batch} {s : Store} (isKey : ∀ key ∈ s.contents.keys, key.isKey = true)
    (texts : ∀ o ∈ b.operations, o.key.isText = true) (ofOneName : OfOneName s.listeners)
    (plain : ∀ l ∈ s.listeners, l.Plain) :
    s.apply b =
      { store := ⟨b.outcome s.contents,
          if b.touched s.contents = [] then s.listeners else staying s.listeners⟩
        events := due s.listeners (b.outcome s.contents) (b.touched s.contents) } := by
  have keys : ∀ o ∈ b.operations, o.key.isKey = true := fun o ho =>
    Value.isKey_of_isText (texts o ho)
  obtain ⟨clean, contents⟩ := Batch.run_of_isKey keys s.contents
  have touched : ∀ key ∈ b.touched s.contents, key.isKey = true := by
    intro key h
    rcases Batch.mem_touched.mp h with old | ⟨o, ho, rfl⟩
    · unfold Batch.cleared at old
      split_ifs at old
      · exact isKey key old
      · cases old
    · exact keys o ho
  unfold apply
  rw [applyWithin_of_clean _ clean, Batch.announced_run texts, contents]
  exact tell_all_of_plain touched ofOneName plain

theorem calls_quiet_of_plain {b : Batch} {s : Store} (plain : ∀ l ∈ s.listeners, l.Plain) :
    ∀ made ∈ s.calls b, made.writes = false := by
  intro made member
  have reaction := plain _ ((passes_apply b s).listener_mem made member)
  unfold Call.writes
  rcases reaction with log | once
  · rw [log]
  · rw [once]

end plain

namespace Session

/-- **What listeners are told.**  Where they only take note or leave when they are called, and keys
are texts, an apply or a commit makes known each key that the batch touches, none of them twice, and
so each under which something else is found afterwards.  Every listener is told of the first key, in
the order of registration, and those that stay of each later key; whoever is called finds what the
whole batch leaves.  If anything was made known, those that stay remain registered, and otherwise
all. -/
theorem step_apply_delivers {s : Session} {n : Nat} {e : Editor} {step : Step} (linked : s.Linked)
    (introduced : s.Introduced) (here : s.editors[n]? = some e) (applies : step.applied? = some n)
    (proper : (s.store e.store).contents.Proper)
    (texts : ∀ o ∈ e.pending.operations, o.key.isText = true)
    (plain : ∀ l ∈ (s.store e.store).listeners, l.Plain) :
    let before := s.store e.store
    let left := e.pending.outcome before.contents
    let keys := e.pending.touched before.contents
    let after := s.step step
    after.1.result.isOk = true ∧
    after.1.events = (due before.listeners left keys).map (e.store, ·) ∧
    after.1.events = (s.callsOf step).map (fun made => (made.1, made.2.event)) ∧
    (∀ made ∈ s.callsOf step, made.2.store.contents = left) ∧
    after.2.store e.store =
      ⟨left, if keys = [] then before.listeners else staying before.listeners⟩ ∧
    keys.Pairwise (fun key other => key.same other = false) ∧
    ∀ key, left.get? key ≠ before.contents.get? key → keys.any (·.same key) = true := by
  intro before left keys after
  have course := apply_of_plain proper.isKey texts (introduced.store_ofOneName e.store) plain
  have calls := s.callsOf_of_applied? here applies
  obtain ⟨result, same⟩ := s.step_of_applied? applies
  have ok : after.1.result.isOk = true := by
    show (s.step step).1.result.isOk = true
    rw [same, applyEditor_isOk here, course]
    rfl
  have events : after.1.events = (due before.listeners left keys).map (e.store, ·) := by
    show (s.step step).1.events = _
    rw [same]
    unfold applyEditor
    simp only [here, course]
    rfl
  refine ⟨ok, events, s.step_events step, ?_, ?_, Batch.touched_pairwise proper texts,
    fun key => Batch.any_same_touched texts⟩
  · rw [calls]
    rintro _ told
    obtain ⟨call, member, rfl⟩ := List.mem_map.mp told
    have found := (calls_of_quiet (calls_quiet_of_plain plain) call member).1
    rw [(Batch.run_of_isKey (fun o ho => Value.isKey_of_isText (texts o ho)) _).2] at found
    exact found
  · show (s.step step).2.store e.store = _
    rw [same, applyEditor_store here (linked.store_lt here), course]

/-- A store with three listeners, one of which leaves and is registered twice, and an editor that
clears the store and writes an old key and a new one. -/
def attended : Session :=
  ((start [(.text "a", .int 1), (.text "b", .int 2)]).run
    [.listen ⟨"o", .once⟩, .listen ⟨"l", .log⟩, .listen ⟨"o", .once⟩, .edit,
      .put 0 .int (.text "c") (.int 3), .clear 0, .put 0 .int (.text "b") (.int 4),
      .remove 0 (.text "c")]).2

theorem step_apply_delivers_attended :
    (attended.step (.apply 0)).1.events =
      [(0, ⟨"o", .text "a", false⟩), (0, ⟨"l", .text "a", false⟩), (0, ⟨"o", .text "a", false⟩),
        (0, ⟨"l", .text "b", true⟩), (0, ⟨"l", .text "c", false⟩)] ∧
      (attended.step (.apply 0)).2.store 0 = ⟨[(.text "b", .int 4)], [⟨"l", .log⟩]⟩ := by
  have here : attended.editors[0]? = some
      { store := 0, pending := { clears := true, operations := [.put (.text "c") (.int 3),
        .put (.text "b") (.int 4), .remove (.text "c")] } } := rfl
  have store : attended.store 0 = ⟨[(.text "a", .int 1), (.text "b", .int 2)],
      [⟨"o", .once⟩, ⟨"l", .log⟩, ⟨"o", .once⟩]⟩ := rfl
  have keyed : (attended.store 0).contents.TextKeyed := by
    rw [store]
    exact ⟨by decide, by decide⟩
  have plain : ∀ l ∈ (attended.store 0).listeners, l.Plain := by
    rw [store]
    simp [Listener.Plain]
  have linked : attended.Linked := linked_run _ _
  have introduced : attended.Introduced := introduced_run _ _
  have applies : (Step.apply 0).applied? = some 0 := rfl
  obtain ⟨-, events, -, -, left, -⟩ :=
    step_apply_delivers linked introduced here applies keyed.proper (by decide) plain
  dsimp only at events left
  rw [store] at events left
  exact ⟨events.trans (by cbv), left.trans (by cbv)⟩

end Session

end Store

end Preferences

import Mathlib.Logic.Relation
import Preferences.Proofs.Store.Deeds
import Preferences.Proofs.Store.Kinds

/-! # How deep applies nest

A listener that answers a key with a change has the store applied once more, within the apply that
calls it.  `Ends depth` describes an apply with no more than `depth` applies within each other below
it, without a limit that could cut it off: one change is made, its calls follow (`applyOnce`), and
each of them that is answered ends in turn, with one apply less (`Answered`).  It holds of the
course that `applyWithin` finds exactly if that one is not cut off (`ends_iff`), so an apply ends in
one way only.

The listeners that write make a graph on keys: the trigger of each leads to its target (`Leads`).
If it has no cycle, fewer of these listeners can be reached from the target than from the trigger
(`reachable_lt`), which bounds the depth: every apply ends, with no more applies within each other
than there are listeners that write (`ends_apply`). -/

namespace Preferences.Store

/-! ### One apply and its calls -/

/-- An apply whose listeners have their answers applied by `change`. -/
def applyOnce (change : Batch → Store → Course) (b : Batch) (s : Store) : Course :=
  match (b.run s.contents).misuse with
  | some misuse =>
    .failed { s with contents := (b.run s.contents).contents } (.misused misuse)
  | none =>
    Course.forEach (tell change) (b.run s.contents).announced
      { s with contents := (b.run s.contents).contents }

/-- The calls that an apply makes itself, without those within the answers of listeners. -/
def ownCalls (change : Batch → Store → Course) (b : Batch) (s : Store) : List Call :=
  match (b.run s.contents).misuse with
  | some _ => []
  | none =>
    callsForEach (tell change) (callsOfTurn change fun _ _ => []) (b.run s.contents).announced
      { s with contents := (b.run s.contents).contents }

theorem applyWithin_succ (depth : Nat) (b : Batch) (s : Store) :
    applyWithin (depth + 1) b s = applyOnce (applyWithin depth) b s := rfl

/-- Every answer to a call of the apply has a course with the property. -/
def Answered (nested : Batch → Store → Course → Prop) (change : Batch → Store → Course) (b : Batch)
    (s : Store) : Prop :=
  ∀ call ∈ ownCalls change b s, ∀ o, call.answer? = some o →
    nested { operations := [o] } call.store (change { operations := [o] } call.store)

/-- The apply ends with the course, with no more than `depth` applies within each other below it. -/
def Ends : (depth : Nat) → Batch → Store → Course → Prop
  | 0, b, s, c => ∃ change, c = applyOnce change b s ∧ Answered (fun _ _ _ => False) change b s
  | depth + 1, b, s, c => ∃ change, c = applyOnce change b s ∧ Answered (Ends depth) change b s

/-! ### What the calls decide -/

section forEach
variable {α : Type} {act act' : α → Store → Course} {calls : α → Store → List Call}
  {items : List α} {s : Store} {P : Call → Prop}

theorem forEach_congr
    (one : ∀ item s, (∀ call ∈ calls item s, P call) → act' item s = act item s)
    (all : ∀ call ∈ callsForEach act calls items s, P call) :
    Course.forEach act' items s = Course.forEach act items s := by
  induction items generalizing s with
  | nil => rfl
  | cons item rest ih =>
      obtain ⟨now, later⟩ := List.forall_mem_append.mp all
      rw [Course.forEach_cons, Course.forEach_cons, one item s now]
      unfold Course.andThen
      cases ended : (act item s).fault with
      | some fault => rfl
      | none =>
          rw [ended] at later
          rw [ih later]

/-- If each item is cut off exactly by its calls with the property, so are all together. -/
theorem forEach_endless_iff
    (one : ∀ item s, (act item s).fault = some .endless ↔ ∃ call ∈ calls item s, P call) :
    (Course.forEach act items s).fault = some .endless ↔
      ∃ call ∈ callsForEach act calls items s, P call := by
  induction items generalizing s with
  | nil => exact iff_of_false nofun (by rintro ⟨call, ⟨⟩, -⟩)
  | cons item rest ih =>
      simp only [Course.forEach_cons, callsForEach, List.mem_append, or_and_right, exists_or,
        ← one item s, Course.andThen]
      cases ended : (act item s).fault with
      | some fault => simp [ended]
      | none => simp [ih]

/-- A call is made for one of the items, on a store with no listeners but the known ones. -/
theorem exists_of_mem_callsForEach {known : List Listener}
    (keeps : ∀ item ∈ items, ∀ s, s.listeners ⊆ known → (act item s).store.listeners ⊆ known)
    (old : s.listeners ⊆ known) {call : Call} (h : call ∈ callsForEach act calls items s) :
    ∃ item ∈ items, ∃ t : Store, t.listeners ⊆ known ∧ call ∈ calls item t := by
  induction items generalizing s with
  | nil => cases h
  | cons item rest ih =>
      rcases List.mem_append.mp h with now | later
      · exact ⟨item, List.mem_cons_self, s, old, now⟩
      · split_ifs at later
        · obtain ⟨item', member, t, within, made⟩ :=
          ih (fun item' member => keeps item' (List.mem_cons_of_mem _ member))
            (keeps item List.mem_cons_self s old) later
          exact ⟨item', List.mem_cons_of_mem _ member, t, within, made⟩
        · cases later

end forEach

section call
variable {change other : Batch → Store → Course} {key : Value} {l : Listener} {s : Store}

/-- The call itself is all that it counts for where answers are left out. -/
theorem callsOfCall_none (key : Value) (l : Listener) (s : Store) :
    callsOfCall (fun _ _ => []) key l s = if key.isKey then [⟨l, key, s⟩] else [] := by
  have nothing : callsOfReaction (fun _ _ => []) l key s = [] := by
    unfold callsOfReaction
    repeat' split
    all_goals rfl
  rw [callsOfCall, nothing]

theorem react_of_unanswered (change other : Batch → Store → Course)
    (h : (⟨l, key, s⟩ : Call).answer? = none) : react other l key s = react change l key s := by
  unfold Call.answer? at h
  unfold react
  cases reaction : l.reaction with
  | log | once | raise trigger => rfl
  | put trigger target number =>
      simp only [reaction] at h
      dsimp only
      split_ifs at h ⊢
      · cases written : Kind.int.write target number with
        | ok o =>
            rw [written] at h
            cases h
        | error misuse => rfl
      · rfl

/-- How answers are applied makes a difference only to a call that is answered. -/
theorem call_congr (same : ∀ call ∈ callsOfCall (fun _ _ => []) key l s, ∀ o,
      call.answer? = some o →
        other { operations := [o] } call.store = change { operations := [o] } call.store) :
    call other key l s = call change key l s := by
  rw [callsOfCall_none] at same
  by_cases isKey : key.isKey = true
  · rw [if_pos isKey, List.forall_mem_singleton] at same
    rw [call_of_isKey other isKey, call_of_isKey change isKey]
    congr 1
    cases answer : (⟨l, key, s⟩ : Call).answer? with
    | some o =>
        rw [(react_of_answer? other (fun _ _ => []) answer).1,
          (react_of_answer? change (fun _ _ => []) answer).1]
        exact same o answer
    | none => exact react_of_unanswered change other answer
  · rw [Store.call, Store.call, if_neg isKey, if_neg isKey]

theorem call_endless_iff : (call change key l s).fault = some .endless ↔
    ∃ call ∈ callsOfCall (fun _ _ => []) key l s, ∃ o, call.answer? = some o ∧
      (change { operations := [o] } call.store).fault = some .endless := by
  rw [callsOfCall_none]
  by_cases isKey : key.isKey = true
  · rw [if_pos isKey, call_of_isKey change isKey, Course.called]
    cases answer : (⟨l, key, s⟩ : Call).answer? with
    | some o =>
        rw [(react_of_answer? change (fun _ _ => []) answer).1]
        simp [answer]
    | none =>
        have ends := (react_of_answer?_eq_none change (fun _ _ => []) answer).2.2
        simp [answer, ends]
  · rw [Store.call, if_neg isKey, if_neg isKey]
    exact iff_of_false (by rintro ⟨⟩) (by rintro ⟨call, ⟨⟩, -⟩)

end call

section once
variable {change other : Batch → Store → Course} {b : Batch} {s : Store} {depth : Nat}

/-- An apply depends only on how the answers to its own calls are applied. -/
theorem applyOnce_congr
    (same : ∀ call ∈ ownCalls change b s, ∀ o, call.answer? = some o →
      other { operations := [o] } call.store = change { operations := [o] } call.store) :
    applyOnce other b s = applyOnce change b s := by
  unfold applyOnce
  unfold ownCalls at same
  cases stops : (b.run s.contents).misuse with
  | some misuse => rfl
  | none =>
      rw [stops] at same
      exact forEach_congr (fun key t told => forEach_congr (fun l t => call_congr) told) same

theorem applyOnce_endless_iff : (applyOnce change b s).fault = some .endless ↔
    ∃ call ∈ ownCalls change b s, ∃ o, call.answer? = some o ∧
      (change { operations := [o] } call.store).fault = some .endless := by
  unfold applyOnce ownCalls
  cases (b.run s.contents).misuse with
  | some misuse => exact iff_of_false nofun (by rintro ⟨call, ⟨⟩, -⟩)
  | none => exact forEach_endless_iff fun key t => forEach_endless_iff fun l t => call_endless_iff

end once

/-- An apply ends, with no more than a number of applies within each other below it, exactly with
the course that it has within that depth, if it is not cut off there. -/
theorem ends_iff {depth : Nat} {b : Batch} {s : Store} {c : Course} :
    Ends depth b s c ↔ applyWithin (depth + 1) b s = c ∧ c.fault ≠ some .endless := by
  induction depth generalizing b s c with
  | zero =>
      constructor
      · rintro ⟨change, rfl, unanswered⟩
        refine ⟨applyOnce_congr fun call member o answer => ?_, fun cut => ?_⟩
        · exact (unanswered call member o answer).elim
        · obtain ⟨call, member, o, answer, -⟩ := applyOnce_endless_iff.mp cut
          exact unanswered call member o answer
      · rintro ⟨rfl, ends⟩
        refine ⟨applyWithin 0, rfl, fun call member o answer => ends ?_⟩
        exact applyOnce_endless_iff.mpr ⟨call, member, o, answer, rfl⟩
  | succ depth ih =>
      constructor
      · rintro ⟨change, rfl, answered⟩
        refine ⟨applyOnce_congr fun call member o answer => ?_, fun cut => ?_⟩
        · exact (ih.mp (answered call member o answer)).1
        · obtain ⟨call, member, o, answer, cut⟩ := applyOnce_endless_iff.mp cut
          exact (ih.mp (answered call member o answer)).2 cut
      · rintro ⟨rfl, ends⟩
        refine ⟨applyWithin (depth + 1), rfl,
          fun call member o answer => ih.mpr ⟨rfl, fun cut => ?_⟩⟩
        exact ends (applyOnce_endless_iff.mpr ⟨call, member, o, answer, cut⟩)

/-- More room changes nothing about an apply that ends. -/
theorem Ends.succ {depth : Nat} {b : Batch} {s : Store} {c : Course} (h : Ends depth b s c) :
    Ends (depth + 1) b s c := by
  induction depth generalizing b s c with
  | zero =>
      obtain ⟨change, made, unanswered⟩ := h
      exact ⟨change, made, fun call member o answer => (unanswered call member o answer).elim⟩
  | succ depth ih =>
      obtain ⟨change, made, answered⟩ := h
      exact ⟨change, made, fun call member o answer => ih (answered call member o answer)⟩

theorem Ends.mono {depth more : Nat} {b : Batch} {s : Store} {c : Course} (h : Ends depth b s c)
    (le : depth ≤ more) : Ends more b s c := by
  induction le with
  | refl => exact h
  | step _ ih => exact ih.succ

/-- An apply ends in one way only. -/
theorem Ends.unique {depth depth' : Nat} {b : Batch} {s : Store} {c c' : Course}
    (h : Ends depth b s c) (h' : Ends depth' b s c') : c = c' := by
  have here := ends_iff.mp (h.mono (Nat.le_max_left depth depth'))
  have there := ends_iff.mp (h'.mono (Nat.le_max_right depth depth'))
  exact here.1.symm.trans there.1

/-! ### The graph of the listeners that write -/

/-- A listener that writes is triggered by the key `a` and writes the key `b`. -/
def Leads (listeners : List Listener) (a b : Value) : Prop :=
  ∃ l ∈ listeners, ∃ trigger number, l.reaction = .put trigger b number ∧ a.same trigger = true

def Acyclic (listeners : List Listener) : Prop :=
  ∀ key, ¬Relation.TransGen (Leads listeners) key key

/-- The listener writes, and its trigger can be reached from the key. -/
def Reached (listeners : List Listener) (key : Value) (l : Listener) : Prop :=
  ∃ trigger target number, l.reaction = .put trigger target number ∧
    ∃ before, Relation.ReflTransGen (Leads listeners) key before ∧ before.same trigger = true

open Classical in
/-- The number of listeners that write and can be reached from the key. -/
noncomputable def reachable (listeners : List Listener) (key : Value) : Nat :=
  listeners.countP fun l => decide (Reached listeners key l)

/-- There is no cycle where something falls from each key to the next. -/
theorem acyclic_of_falls {listeners : List Listener} (rank : Value → Nat)
    (falls : ∀ a b, Leads listeners a b → rank b < rank a) : Acyclic listeners := by
  have fallen : ∀ a b, Relation.TransGen (Leads listeners) a b → rank b < rank a := by
    intro a b path
    induction path with
    | single lead => exact falls _ _ lead
    | tail _ lead ih => exact (falls _ _ lead).trans ih
  exact fun key cycle => Nat.lt_irrefl _ (fallen key key cycle)

section graph
variable {listeners : List Listener} {a b : Value} {l : Listener}

theorem Reached.writes (h : Reached listeners a l) : l.writes = true := by
  obtain ⟨trigger, target, number, reaction, -⟩ := h
  rw [Listener.writes, reaction]

theorem reachable_le (listeners : List Listener) (key : Value) :
    reachable listeners key ≤ (listeners.filter Listener.writes).length := by
  classical
  rw [← List.countP_eq_length_filter]
  refine List.countP_mono_left fun l _ reached => ?_
  exact (of_decide_eq_true reached).writes

theorem Reached.of_leads (lead : Leads listeners a b) (h : Reached listeners b l) :
    Reached listeners a l := by
  obtain ⟨trigger, target, number, reaction, before, path, same⟩ := h
  exact ⟨trigger, target, number, reaction, before, path.head lead, same⟩

/-- Without a cycle, the listener that leads on cannot be reached from where it leads. -/
theorem reachable_lt (acyclic : Acyclic listeners) (lead : Leads listeners a b) :
    reachable listeners b < reachable listeners a := by
  classical
  obtain ⟨l, member, trigger, number, reaction, same⟩ := lead
  have lead : Leads listeners a b := ⟨l, member, trigger, number, reaction, same⟩
  have here : Reached listeners a l := ⟨trigger, b, number, reaction, a, .refl, same⟩
  have gone : ¬Reached listeners b l := by
    rintro ⟨trigger', b', number', reaction', before, path, same'⟩
    obtain ⟨rfl, rfl, rfl⟩ := Reaction.put.inj (reaction.symm.trans reaction')
    have back : Leads listeners before b := ⟨l, member, trigger, number, reaction, same'⟩
    exact acyclic b (Relation.TransGen.tail' path back)
  obtain ⟨first, last, split⟩ := List.append_of_mem member
  have fewer (part : List Listener) : part.countP (fun l => decide (Reached listeners b l)) ≤
      part.countP fun l => decide (Reached listeners a l) := by
    refine List.countP_mono_left fun other _ reached => ?_
    exact decide_eq_true ((of_decide_eq_true reached).of_leads lead)
  have counted (key : Value) : reachable listeners key =
      first.countP (fun l => decide (Reached listeners key l)) +
        ((if Reached listeners key l then 1 else 0) +
          last.countP fun l => decide (Reached listeners key l)) := by
    have whole : reachable listeners key = (first ++ l :: last).countP
        fun l => decide (Reached listeners key l) := congrArg (List.countP _) split
    rw [whole, List.countP_append, List.countP_cons, Nat.add_comm (List.countP _ last)]
    simp only [decide_eq_true_eq]
  have before := fewer first
  have behind := fewer last
  rw [counted a, counted b, if_pos here, if_neg gone]
  omega

end graph

/-! ### The bound -/

section bound
variable {known : List Listener} {depth : Nat} {b : Batch} {s : Store}

theorem mem_ownCalls (old : s.listeners ⊆ known) {call : Call}
    (h : call ∈ ownCalls (applyWithin depth) b s) :
    call.listener ∈ known ∧ call.key ∈ (b.run s.contents).announced ∧
      call.store.listeners ⊆ known := by
  have told (key : Value) (t : Store) (old : t.listeners ⊆ known) :
      (tell (applyWithin depth) key t).store.listeners ⊆ known :=
    List.Subset.trans (passes_tell (passes_applyWithin depth) key t old).sublist.subset old
  have called (key : Value) {l : Listener} (member : l ∈ known) (t : Store)
      (old : t.listeners ⊆ known) :
      (Store.call (applyWithin depth) key l t).store.listeners ⊆ known :=
    List.Subset.trans (passes_call (passes_applyWithin depth) member key t old).sublist.subset old
  unfold ownCalls at h
  split at h
  · cases h
  · have begins : ({ s with contents := (b.run s.contents).contents } : Store).listeners ⊆ known :=
      old
    obtain ⟨key, announced, t, within, h⟩ :=
      exists_of_mem_callsForEach (fun key _ => told key) begins h
    obtain ⟨l, member, u, within', h⟩ :=
      exists_of_mem_callsForEach (fun l member => called key (within member)) within h
    rw [callsOfCall_none] at h
    split_ifs at h
    · obtain rfl := List.mem_singleton.mp h
      exact ⟨within member, announced, within'⟩
    · cases h

/-- An answer announces nothing but its own key. -/
theorem announced_of_answer {o : Operation} {c : Contents} {key : Value}
    (h : key ∈ (Batch.run { operations := [o] } c).announced) : key = o.key := by
  have announced : (Batch.run { operations := [o] } c).announced ⊆ [o.key] := by
    show (Change.perform { contents := c, announced := [] } o).announced ⊆ [o.key]
    unfold Change.perform
    cases o.perform c with
    | ok after => exact List.Subset.refl _
    | error misuse => exact List.nil_subset _
  exact List.mem_singleton.mp (announced h)

theorem Call.leads {call : Call} {o : Operation} (member : call.listener ∈ known)
    (answer : call.answer? = some o) : Leads known call.key o.key := by
  unfold Call.answer? at answer
  split at answer
  · next trigger target number reaction =>
      split_ifs at answer with triggered
      cases written : Kind.int.write target number with
      | ok operation =>
          rw [written] at answer
          obtain rfl := Option.some.inj answer
          rw [Kind.key_of_write written]
          exact ⟨call.listener, member, trigger, number, reaction, triggered⟩
      | error misuse =>
          rw [written] at answer
          cases answer
  · cases answer

/-- If fewer listeners than `depth` allows can be reached from the announced keys, the apply
ends. -/
theorem ends_applyWithin (acyclic : Acyclic known) (old : s.listeners ⊆ known)
    (low : ∀ key ∈ (b.run s.contents).announced, reachable known key ≤ depth) :
    Ends depth b s (applyWithin (depth + 1) b s) := by
  refine ends_iff.mpr ⟨rfl, ?_⟩
  induction depth generalizing b s with
  | zero =>
      intro cut
      obtain ⟨call, made, o, answer, -⟩ := applyOnce_endless_iff.mp cut
      obtain ⟨member, announced, -⟩ := mem_ownCalls old made
      have fewer := reachable_lt acyclic (Call.leads member answer)
      have none := low _ announced
      omega
  | succ depth ih =>
      intro cut
      obtain ⟨call, made, o, answer, cut⟩ := applyOnce_endless_iff.mp cut
      obtain ⟨member, announced, within⟩ := mem_ownCalls old made
      refine ih within (fun key told => ?_) cut
      have fewer := reachable_lt acyclic (Call.leads member answer)
      have bound := low _ announced
      rw [announced_of_answer told]
      omega

/-- An apply ends, with no more applies within each other below it than there are listeners that
write. -/
theorem ends_apply (acyclic : Acyclic s.listeners) (b : Batch) :
    Ends (s.listeners.filter Listener.writes).length b s (s.apply b) :=
  ends_applyWithin acyclic (List.Subset.refl _) fun key _ => reachable_le s.listeners key

end bound

namespace Session

/-- **Nested applies end.**  If the graph of the listeners that write has no cycle, every apply of
an editor ends, in one way only, with no more applies within each other below it than its store has
listeners that write; the step returns or is a fault of the apply, and is never cut off. -/
theorem step_apply_ends {s : Session} {step : Step} {n : Nat} {e : Editor}
    (applies : step.applied? = some n) (here : s.editors[n]? = some e)
    (acyclic : Acyclic (s.store e.store).listeners) :
    ∃ c, Ends ((s.store e.store).listeners.filter Listener.writes).length e.pending
        (s.store e.store) c ∧
      (∀ depth other, Ends depth e.pending (s.store e.store) other → other = c) ∧
      (s.step step).1.after = some c.store.contents ∧
      (s.step step).1.events = c.events.map ((e.store, ·)) ∧
      ((c.fault = none ∧ ∃ result, (s.step step).1.result = .ok result) ∨
        ∃ fault,
          c.fault = some fault ∧ fault ≠ .endless ∧ (s.step step).1.result = .error fault) := by
  have ends := ends_apply acyclic e.pending
  refine ⟨_, ends, fun depth other h => h.unique ends, ?_⟩
  obtain ⟨result, same⟩ := s.step_of_applied? applies
  have uncut := (ends_iff.mp ends).2
  rw [same, applyEditor, here]
  dsimp only
  cases ended : ((s.store e.store).apply e.pending).fault with
  | none => exact ⟨rfl, rfl, Or.inl ⟨rfl, result, rfl⟩⟩
  | some fault =>
      refine ⟨rfl, rfl, Or.inr ⟨fault, rfl, ?_, rfl⟩⟩
      rintro rfl
      exact uncut ended

/-- A store whose listeners pass a change on from one key to the next, and an editor that starts
it. -/
def passingOn : Session :=
  ((start []).run [.listen ⟨"first", .put (.text "a") (.text "b") (.int 1)⟩,
    .listen ⟨"second", .put (.text "b") (.text "c") (.int 2)⟩, .listen ⟨"last", .log⟩, .edit,
    .put 0 .int (.text "a") (.int 5)]).2

def passes : Value → Nat
  | .text "a" => 2
  | .text "b" => 1
  | _ => 0

theorem step_apply_ends_passingOn : ∃ c, Ends 2 { operations := [.put (.text "a") (.int 5)] }
    (passingOn.store 0) c ∧ (passingOn.step (.apply 0)).1.events = c.events.map ((0, ·)) := by
  have acyclic : Acyclic (passingOn.store 0).listeners := by
    refine acyclic_of_falls passes ?_
    rintro a b ⟨l, member, trigger, number, reaction, same⟩
    have known : (passingOn.store 0).listeners = [⟨"first", .put (.text "a") (.text "b") (.int 1)⟩,
        ⟨"second", .put (.text "b") (.text "c") (.int 2)⟩, ⟨"last", .log⟩] := rfl
    rw [known] at member
    simp only [List.mem_cons, List.not_mem_nil, or_false] at member
    rcases member with rfl | rfl | rfl
    · obtain ⟨rfl, rfl, rfl⟩ := Reaction.put.inj reaction
      obtain rfl := of_decide_eq_true ((Value.same_eq_decide rfl).symm.trans same)
      decide
    · obtain ⟨rfl, rfl, rfl⟩ := Reaction.put.inj reaction
      obtain rfl := of_decide_eq_true ((Value.same_eq_decide rfl).symm.trans same)
      decide
    · cases reaction
  have applies : (Step.apply 0).applied? = some 0 := rfl
  have here : passingOn.editors[0]? =
      some { store := 0, pending := { operations := [.put (.text "a") (.int 5)] } } := rfl
  obtain ⟨c, ends, -, -, events, -⟩ := step_apply_ends applies here acyclic
  exact ⟨c, ends, events⟩

end Session

end Preferences.Store

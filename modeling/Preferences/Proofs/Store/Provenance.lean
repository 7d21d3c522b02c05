import Preferences.Proofs.Store.CallCounts
import Preferences.Proofs.Store.Deeds

/-! # Where the changes of stores come from

What the stores of a session hold changes in a step only by an apply or a commit, to what its deeds
make of it, and a store that a context gives out for the first time holds what the context says
(`step_held`).  So after any steps a store holds what the deeds on it have made of its contents
(`run_contents`).  `Grounded` traces what a session has in store back to the steps that have been
made, and with it every operation among the deeds is one that the steps have asked for
(`asked_of_mem_deedsIn`). -/

namespace Preferences.Store

/-- The steps ask for the operation: one of them records it, or registers a listener that answers
with it. -/
def Asked (steps : List Step) (o : Operation) : Prop :=
  (∃ step ∈ steps, step.recorded? = some o) ∨ ∃ l, Step.listen l ∈ steps ∧ l.Answers o

namespace Session

def held (s : Session) : List Contents := s.stores.map (·.contents)

/-- What the step does to the store of this number. -/
def deedsOn (s : Session) (n : Nat) (step : Step) : List Deed :=
  match step.applied?.bind (s.editors[·]?) with
  | some e => if e.store = n then (s.store n).deeds e.pending else []
  | none => []

def deedsIn (s : Session) (n : Nat) (steps : List Step) : List Deed :=
  (s.visits steps).flatMap fun visit => visit.1.deedsOn n visit.2

variable {s : Session} {next : Step} {n : Nat}

/-! ### What the stores hold -/

theorem store_contents (s : Session) (n : Nat) : (s.store n).contents = s.held[n]?.getD [] := by
  unfold held Session.store
  rw [List.getElem?_map]
  cases s.stores[n]? <;> rfl

theorem held_setStore (s : Session) (n : Nat) (store : Store) :
    (s.setStore n store).held = s.held.set n store.contents := by
  unfold held setStore
  exact List.map_set

theorem held_setStore_of_eq {store : Store} (same : store.contents = (s.store n).contents) :
    (s.setStore n store).held = s.held := by
  rw [held_setStore, same, ← held_setStore, s.setStore_store_self]

theorem useStore_held (s : Session) (context : Context) (name : Value) :
    (s.useStore context name).2.held = s.held ∨
      (s.useStore context name).2.held = s.held ++ [context.initial] := by
  unfold useStore
  split_ifs
  · exact Or.inl rfl
  · cases context.find? name with
    | some n => exact Or.inl rfl
    | none => exact Or.inr (by simp [held])

theorem unregister_contents {store t : Store} {name : String}
    (off : store.unregister name = .ok t) : t.contents = store.contents := by
  rw [unregister_eq] at off
  split_ifs at off
  cases off
  rfl

/-- All that a step can do to what the stores hold. -/
theorem step_held (s : Session) (step : Step) :
    (∃ m e, step.applied? = some m ∧ s.editors[m]? = some e ∧ (s.step step).2.held =
      s.held.set e.store (replay ((s.store e.store).deeds e.pending) (s.store e.store).contents)) ∨
    step.applied?.bind (s.editors[·]?) = none ∧ ((s.step step).2.held = s.held ∨
      ∃ context, s.context = some context ∧
        (s.step step).2.held = s.held ++ [context.initial]) := by
  have moves := s.step_moves step
  generalize (s.step step).2 = after at moves ⊢
  cases moves with
  | stays idle => exact Or.inr ⟨idle, Or.inl rfl⟩
  | records on call => exact Or.inr ⟨by rw [call, Option.bind_none], Or.inl rfl⟩
  | applies applied here =>
      refine Or.inl ⟨_, _, applied, here, ?_⟩
      rw [← apply_contents]
      exact s.held_setStore _ _
  | edits step_eq | opens step_eq =>
      subst step_eq
      exact Or.inr ⟨rfl, Or.inl rfl⟩
  | @uses context name here asking =>
      have idle : step.applied? = none := by
        rcases asking with rfl | ⟨rfl, -⟩ <;> rfl
      refine Or.inr ⟨by rw [idle, Option.bind_none], ?_⟩
      rcases s.useStore_held context name with same | more
      · exact Or.inl same
      · exact Or.inr ⟨context, here, more⟩
  | listensAgain listen | listens listen =>
      subst listen
      exact Or.inr ⟨rfl, Or.inl (held_setStore_of_eq rfl)⟩
  | unlistens unlisten off =>
      subst unlisten
      exact Or.inr ⟨rfl, Or.inl (held_setStore_of_eq (unregister_contents off))⟩

theorem step_held_of_lt (there : n < s.held.length) (step : Step) :
    (s.step step).2.held[n]? = some (replay (s.deedsOn n step) (s.store n).contents) := by
  have before : s.held[n]? = some (s.store n).contents := by
    rw [store_contents, List.getElem?_eq_getElem there]
    rfl
  unfold deedsOn
  rcases s.step_held step with ⟨m, e, applied, here, after⟩ | ⟨idle, after⟩
  · rw [after, applied, Option.bind_some, here]
    by_cases own : e.store = n
    · subst own
      simp [there]
    · simp [own, List.getElem?_set_ne own, before, replay]
  · rw [idle]
    rcases after with same | ⟨context, -, more⟩
    · rw [same, before]
      rfl
    · rw [more, List.getElem?_append_left there, before]
      rfl

theorem step_held_of_le {c : Contents} (new : s.held.length ≤ n)
    (h : (s.step next).2.held[n]? = some c) :
    ∃ context, s.context = some context ∧ c = context.initial := by
  have lt := (List.getElem?_eq_some_iff.mp h).1
  rcases s.step_held next with ⟨m, e, -, -, after⟩ | ⟨-, same | ⟨context, given, more⟩⟩
  · rw [after, List.length_set] at lt
    omega
  · rw [same] at lt
    omega
  · rw [more, List.getElem?_append_right new] at h
    exact ⟨context, given, List.mem_singleton.mp (List.mem_of_getElem? h)⟩

/-- After any steps a store holds what the deeds on it have made of its contents. -/
theorem run_contents (there : n < s.held.length) (steps : List Step) :
    ((s.run steps).2.store n).contents = replay (s.deedsIn n steps) (s.store n).contents := by
  induction steps generalizing s with
  | nil => rfl
  | cons step rest ih =>
      have next := step_held_of_lt there step
      have still := (List.getElem?_eq_some_iff.mp next).1
      have first : ((s.step step).2.store n).contents =
          replay (s.deedsOn n step) (s.store n).contents := by
        rw [store_contents, next]
        rfl
      rw [run_cons, ih still, first, ← replay_append]
      rfl

/-! ### Where it comes from -/

/-- What editors have pending was recorded by these steps, and the known listeners and the first
contents of stores were brought by them. -/
structure Grounded (steps : List Step) (s : Session) : Prop where
  pending : ∀ e ∈ s.editors, ∀ o ∈ e.pending.operations, ∃ step ∈ steps, step.recorded? = some o
  known : ∀ l ∈ s.listeners, Step.listen l ∈ steps
  context : ∀ context, s.context = some context →
    ∃ name, Step.openContext name context.initial ∈ steps

variable {steps : List Step}

theorem grounded_start (steps : List Step) (initial : Contents) :
    Grounded steps (start initial) where
  pending := by simp [start]
  known := by simp [start]
  context := by simp [start]

theorem Grounded.setStore (h : s.Grounded steps) (n : Nat) (store : Store) :
    (s.setStore n store).Grounded steps := ⟨h.pending, h.known, h.context⟩

theorem Grounded.updatePending (h : s.Grounded steps) (n : Nat) {f : Batch → Batch}
    (old : ∀ b : Batch, ∀ o ∈ (f b).operations, o ∈ b.operations ∨
      ∃ step ∈ steps, step.recorded? = some o) : (s.updatePending n f).Grounded steps := by
  refine ⟨fun e member o ho => ?_, h.known, h.context⟩
  obtain ⟨k, at_k⟩ := List.mem_iff_getElem?.mp member
  unfold Session.updatePending at at_k
  dsimp only at at_k
  rw [List.getElem?_modify] at at_k
  obtain ⟨before, at_before, rfl⟩ := Option.map_eq_some_iff.mp at_k
  have was := h.pending before (List.mem_of_getElem? at_before)
  split_ifs at ho
  · rcases old _ o ho with there | asked
    · exact was o there
    · exact asked
  · exact was o ho

theorem Grounded.useStore (h : s.Grounded steps) {context : Context}
    (given : s.context = some context) (name : Value) :
    (s.useStore context name).2.Grounded steps := by
  unfold Session.useStore
  split_ifs
  · exact h
  · cases context.find? name with
    | some n => exact ⟨h.pending, h.known, h.context⟩
    | none =>
        refine ⟨h.pending, h.known, fun context' same => ?_⟩
        obtain rfl := Option.some.inj same
        exact h.context context given

theorem Grounded.step (h : s.Grounded steps) (member : next ∈ steps) :
    (s.step next).2.Grounded steps := by
  have moves := s.step_moves next
  generalize (s.step next).2 = after at moves ⊢
  cases moves with
  | stays => exact h
  | @records n =>
      refine h.updatePending n fun b o ho => ?_
      rcases List.mem_append.mp ho with old | new
      · exact Or.inl old
      · exact Or.inr ⟨next, member, Option.mem_toList.mp new⟩
  | @applies n =>
      refine (h.setStore _ _).updatePending n fun b o ho => ?_
      split_ifs at ho
      · exact Or.inl ho
      · exact absurd ho List.not_mem_nil
  | edits =>
      refine ⟨fun e he => ?_, h.known, h.context⟩
      rcases List.mem_append.mp he with old | new
      · exact h.pending e old
      · rw [List.mem_singleton.mp new]
        nofun
  | opens opened =>
      subst opened
      refine ⟨h.pending, h.known, fun context same => ?_⟩
      obtain rfl := Option.some.inj same
      exact ⟨_, member⟩
  | uses here => exact h.useStore here _
  | listensAgain | unlistens => exact h.setStore _ _
  | listens listen =>
      subst listen
      refine ⟨h.pending, fun l hl => ?_, h.context⟩
      rcases List.mem_append.mp hl with old | new
      · exact h.known l old
      · rw [List.mem_singleton.mp new]
        exact member

theorem Grounded.run (h : s.Grounded steps) {made : List Step}
    (among : ∀ step ∈ made, step ∈ steps) : (s.run made).2.Grounded steps :=
  run_keeps (P := (Grounded steps ·))
    (fun _ step member grounded => grounded.step (among step member)) h

/-- What a step does to a store is asked for, and is done to keys. -/
theorem asked_of_mem_deedsOn (grounded : s.Grounded steps) (introduced : s.Introduced)
    {o : Operation} (h : .operation o ∈ s.deedsOn n next) : o.key.isKey = true ∧ Asked steps o := by
  unfold deedsOn at h
  split at h
  · next e at_step =>
      obtain ⟨m, -, here⟩ := Option.bind_eq_some_iff.mp at_step
      split_ifs at h with own
      · obtain ⟨isKey, recorded | ⟨l, hl, answers⟩⟩ := mem_of_mem_deeds h
        · exact ⟨isKey, Or.inl (grounded.pending e (List.mem_of_getElem? here) o recorded)⟩
        · exact ⟨isKey, Or.inr ⟨l, grounded.known l (introduced.store_subset n hl), answers⟩⟩
      · cases h
  · cases h

theorem asked_of_mem_deedsIn (grounded : s.Grounded steps) (introduced : s.Introduced)
    {made : List Step} (among : ∀ step ∈ made, step ∈ steps) {o : Operation}
    (h : .operation o ∈ s.deedsIn n made) : o.key.isKey = true ∧ Asked steps o := by
  induction made generalizing s with
  | nil => cases h
  | cons step rest ih =>
      obtain ⟨first, later⟩ := List.forall_mem_cons.mp among
      rcases List.mem_append.mp h with now | after
      · exact asked_of_mem_deedsOn grounded introduced now
      · exact ih (grounded.step first) (introduced.step step) later after

end Session

end Preferences.Store

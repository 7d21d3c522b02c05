import Mathlib.Data.List.Permutation
import Preferences.Proofs.Store.Contexts
import Preferences.Proofs.Store.Provenance

/-! # Steps on other stores

An editor stays with the store that it was made for (`run_editors_store`), and what is held by a
store that there is changes only in an apply or a commit of one of its editors (`step_frame`).  So
what is made through the editors of other stores makes no difference to a store.  Two sessions may
differ in what other stores hold and what is pending for them (`Agree`); steps that are made on both
keep that (`Agree.step`), and so does a step that is made on one of them through an editor of
another store (`Agree.skip`).  Therefore a store is the same, and is read the same, if all such
steps are left out of a run (`agree_run`, `stores_isolated`). -/

namespace Preferences.Store

namespace Step

def reads : Step → Bool
  | read .. | contains _ | getAll => true
  | _ => false

end Step

namespace Session

variable {s t : Session} {next : Step} {k : Nat}

/-! ### Editors and their stores -/

theorem updatePending_editors_store (s : Session) (n : Nat) (f : Batch → Batch) :
    (s.updatePending n f).editors.map Editor.store = s.editors.map Editor.store := by
  refine List.ext_getElem? fun m => ?_
  unfold updatePending
  simp only [List.getElem?_map, List.getElem?_modify]
  cases s.editors[m]? with
  | none => rfl
  | some e => by_cases own : n = m <;> simp [own]

theorem step_editors_store (s : Session) (step : Step) :
    s.editors.map Editor.store <+: (s.step step).2.editors.map Editor.store := by
  have moves := s.step_moves step
  generalize (s.step step).2 = after at moves ⊢
  cases moves with
  | records | applies => exact (updatePending_editors_store _ _ _).symm ▸ List.prefix_rfl
  | edits => exact (List.prefix_append _ _).map _
  | @uses context name =>
      unfold useStore
      split_ifs
      · exact List.prefix_rfl
      · cases context.find? name <;> exact List.prefix_rfl
  | _ => exact List.prefix_rfl

theorem run_editors_store (s : Session) (steps : List Step) :
    s.editors.map Editor.store <+: (s.run steps).2.editors.map Editor.store :=
  run_keeps (P := fun t => s.editors.map Editor.store <+: t.editors.map Editor.store)
    (fun t step _ grown => grown.trans (t.step_editors_store step)) List.prefix_rfl

theorem editor_store_of_edit (s : Session) (steps : List Step) :
    ((s.step .edit).2.run steps).2.editors[s.editors.length]?.map Editor.store =
      some s.current := by
  obtain ⟨more, grown⟩ := (s.step .edit).2.run_editors_store steps
  have made : (s.step .edit).2.editors.map Editor.store =
      s.editors.map Editor.store ++ [s.current] := by simp [Session.step]
  rw [← List.getElem?_map, ← grown, made]
  simp

/-- What a store holds changes only in an apply or a commit of one of its editors. -/
theorem step_frame {step : Step} (there : k < s.stores.length)
    (differs : ((s.step step).2.store k).contents ≠ (s.store k).contents) :
    ∃ n e, step.applied? = some n ∧ s.editors[n]? = some e ∧ e.store = k := by
  have before : s.held[k]? = some (s.store k).contents := by
    rw [store_contents, List.getElem?_eq_getElem (by simpa [held] using there)]
    rfl
  rw [store_contents _ k] at differs
  rcases s.step_held step with ⟨n, e, applied, here, after⟩ | ⟨-, same | ⟨context, -, after⟩⟩
  · refine ⟨n, e, applied, here, ?_⟩
    by_contra other
    rw [after, List.getElem?_set_ne other, before] at differs
    exact differs rfl
  · rw [same, before] at differs
    exact absurd rfl differs
  · rw [after, List.getElem?_append_left (by simpa [held] using there), before] at differs
    exact absurd rfl differs

/-! ### Leaving out what is done elsewhere -/

/-- The step is made through an editor of another store. -/
def elsewhere (s : Session) (k : Nat) (step : Step) : Bool :=
  (step.editor?.bind (s.editors[·]?)).any (·.store != k)

/-- The steps without those that are made through editors of other stores. -/
def withoutOthers (k : Nat) (s : Session) : List Step → List Step
  | [] => []
  | step :: rest =>
    let later := withoutOthers k (s.step step).2 rest
    if s.elsewhere k step then later else step :: later

/-- The sessions differ at most in what other stores than this hold, who listens to them, and what
is pending for them. -/
structure Agree (k : Nat) (s t : Session) : Prop where
  store : s.stores[k]? = t.stores[k]?
  count : s.stores.length = t.stores.length
  current : s.current = t.current
  context : s.context = t.context
  listeners : s.listeners = t.listeners
  links : s.editors.map Editor.store = t.editors.map Editor.store
  pending : ∀ (n : Nat) (e : Editor), s.editors[n]? = some e → e.store = k → t.editors[n]? = some e

theorem Agree.refl (k : Nat) (s : Session) : Agree k s s :=
  ⟨rfl, rfl, rfl, rfl, rfl, rfl, fun _ _ here _ => here⟩

theorem Agree.store_eq (h : Agree k s t) : s.store k = t.store k :=
  congrArg (·.getD {}) h.store

/-- What is done to another store of one of them makes no difference. -/
theorem Agree.setStore_left (h : Agree k s t) {n : Nat} (other : n ≠ k) (store : Store) :
    Agree k (s.setStore n store) t := by
  refine ⟨?_, (s.setStore_stores_length n store).trans h.count, h.current, h.context, h.listeners,
    h.links, h.pending⟩
  exact (List.getElem?_set_ne other).trans h.store

theorem Agree.updatePending_left (h : Agree k s t) {n : Nat} {e : Editor}
    (here : s.editors[n]? = some e) (other : e.store ≠ k) (f : Batch → Batch) :
    Agree k (s.updatePending n f) t := by
  refine ⟨h.store, h.count, h.current, h.context, h.listeners,
    (s.updatePending_editors_store n f).trans h.links, fun m e' there own => ?_⟩
  have ne : n ≠ m := by
    rintro rfl
    rw [updatePending_getElem?_self here] at there
    obtain rfl := Option.some.inj there
    exact other own
  rw [updatePending_getElem?_of_ne _ ne] at there
  exact h.pending m e' there own

/-- A step that one of them makes through an editor of another store makes no difference. -/
theorem Agree.skip (h : Agree k s t) (away : s.elsewhere k next = true) :
    Agree k (s.step next).2 t := by
  obtain ⟨e, made, other⟩ := (Option.any_eq_true _ _).mp away
  obtain ⟨n, on, here⟩ := Option.bind_eq_some_iff.mp made
  have ne : e.store ≠ k := by simpa using other
  rcases Step.applied?_of_editor? on with call | applied
  · rw [s.step_of_call on call]
    exact h.updatePending_left here ne _
  · obtain ⟨result, same⟩ := s.step_of_applied? applied
    rw [same, applyEditor_snd here]
    exact (h.setStore_left ne _).updatePending_left here ne _

/-- The same may be done to both. -/
theorem Agree.setStore (h : Agree k s t) (n : Nat) {store store' : Store}
    (same : n = k → store = store') : Agree k (s.setStore n store) (t.setStore n store') := by
  refine ⟨?_, ?_, h.current, h.context, h.listeners, h.links, h.pending⟩
  · unfold Session.setStore
    dsimp only
    rw [List.getElem?_set, List.getElem?_set, h.count, h.store]
    by_cases own : n = k
    · rw [same own]
    · rw [if_neg own, if_neg own]
  · rw [setStore_stores_length, setStore_stores_length, h.count]

theorem Agree.updatePending (h : Agree k s t) (n : Nat) (f : Batch → Batch) :
    Agree k (s.updatePending n f) (t.updatePending n f) := by
  refine ⟨h.store, h.count, h.current, h.context, h.listeners, ?_, fun m e there own => ?_⟩
  · rw [updatePending_editors_store, updatePending_editors_store, h.links]
  · unfold Session.updatePending at there ⊢
    dsimp only at there ⊢
    rw [List.getElem?_modify] at there ⊢
    obtain ⟨old, at_m, rfl⟩ := Option.map_eq_some_iff.mp there
    have owned : old.store = k := by split_ifs at own <;> exact own
    rw [h.pending m old at_m owned]
    rfl

theorem Agree.useStore (h : Agree k s t) (context : Context) (name : Value) :
    Agree k (s.useStore context name).2 (t.useStore context name).2 := by
  unfold Session.useStore
  split_ifs
  · exact h
  · cases context.find? name with
    | some n => exact ⟨h.store, h.count, rfl, h.context, h.listeners, h.links, h.pending⟩
    | none =>
        refine ⟨?_, ?_, h.count, ?_, h.listeners, h.links, h.pending⟩
        · dsimp only
          rw [List.getElem?_append, List.getElem?_append, h.count, h.store]
        · simp [h.count]
        · simp [h.count]

theorem step_unlisten (s : Session) (name : String) :
    (s.step (.unlisten name)).2 = s.setStore s.current
      (((s.store s.current).unregister name).toOption.getD (s.store s.current)) := by
  simp only [Session.step]
  cases (s.store s.current).unregister name with
  | ok store => rfl
  | error fault => exact (s.setStore_store_self s.current).symm

/-- A step that both make through an editor of the store keeps them alike. -/
theorem Agree.through {n : Nat} (h : Agree k s t) (on : next.editor? = some n)
    (here : s.elsewhere k next = false) : Agree k (s.step next).2 (t.step next).2 := by
  have missing : s.editors[n]? = none ↔ t.editors[n]? = none := by
    have same := congrArg (·[n]?) h.links
    simp only [List.getElem?_map] at same
    rw [← Option.map_eq_none_iff (f := Editor.store), same, Option.map_eq_none_iff]
  cases found : s.editors[n]? with
  | none =>
      rw [step_of_missing on found, step_of_missing on (missing.mp found)]
      exact h
  | some e =>
      have own : e.store = k := by simpa [elsewhere, on, found] using here
      have found' := h.pending n e found own
      rcases Step.applied?_of_editor? on with call | applied
      · rw [s.step_of_call on call, t.step_of_call on call]
        exact h.updatePending n _
      · obtain ⟨result, same⟩ := s.step_of_applied? applied
        obtain ⟨result', same'⟩ := t.step_of_applied? applied
        have course : s.store e.store = t.store e.store := own ▸ h.store_eq
        rw [same, same', applyEditor_snd found, applyEditor_snd found', course]
        exact (h.setStore e.store fun _ => rfl).updatePending n _

theorem Agree.edit (h : Agree k s t) : Agree k (s.step .edit).2 (t.step .edit).2 := by
  refine ⟨h.store, h.count, h.current, h.context, h.listeners, ?_, fun n e there own => ?_⟩
  · simp [Session.step, h.links, h.current]
  · have length : s.editors.length = t.editors.length := by
      simpa using congrArg List.length h.links
    simp only [Session.step] at there ⊢
    rw [List.getElem?_append] at there ⊢
    rw [← length, ← h.current]
    split_ifs at there ⊢
    · exact h.pending n e there own
    · exact there

/-- A step that both make, unless it is made through an editor of another store, keeps them
alike. -/
theorem Agree.step (h : Agree k s t) (here : s.elsewhere k next = false) :
    Agree k (s.step next).2 (t.step next).2 := by
  cases on : next.editor? with
  | some n => exact h.through on here
  | none =>
      have current : s.current = k → s.store s.current = t.store t.current := by
        rintro rfl
        rw [← h.current]
        exact h.store_eq
      cases next with
      | edit => exact h.edit
      | openContext name initial =>
          exact ⟨h.store, h.count, h.current, rfl, h.listeners, h.links, h.pending⟩
      | use | useDefault =>
          simp only [Session.step, ← h.context]
          cases s.context with
          | none => exact h
          | some context => exact h.useStore context _
      | listen l =>
          have set := h.setStore s.current fun own => congrArg
            (·.register ((s.listeners.find? (·.name == l.name)).getD l)) (current own)
          simp only [Session.step, ← h.listeners, ← h.current] at set ⊢
          split_ifs
          · exact set
          · exact ⟨set.store, set.count, set.current, set.context, congrArg (· ++ [l]) h.listeners,
              set.links, set.pending⟩
      | unlisten name =>
          rw [step_unlisten, step_unlisten, ← h.current] at *
          exact h.setStore s.current fun own => by rw [current own]
      | contains key =>
          simp only [Session.step]
          split_ifs <;> exact h
      | read | getAll => exact h
      | _ => cases on

theorem agree_run (h : Agree k s t) (steps : List Step) :
    Agree k (s.run steps).2 (t.run (withoutOthers k s steps)).2 := by
  induction steps generalizing s t with
  | nil => exact h
  | cons step rest ih =>
      rw [run_cons, withoutOthers]
      cases away : s.elsewhere k step with
      | true => exact ih (h.skip away)
      | false => exact ih (h.step away)

theorem Agree.reads (h : Agree k s t) (own : s.current = k) (reads : next.reads = true) :
    (s.step next).1 = (t.step next).1 := by
  have same : s.store s.current = t.store t.current := by
    rw [← h.current, own]
    exact h.store_eq
  cases next with
  | read | getAll => simp only [Session.step, same]
  | contains key =>
      simp only [Session.step, same]
      split_ifs <;> rfl
  | _ => cases reads

/-- **Stores are kept apart.**  Let a run come to some step, then go on, and then make another step.
A name that can be a key gets a store, which becomes the current one: a store that was given before,
or a new one that holds what the context says.  If both steps get a store, it is the same one
exactly if no context was opened between them and the names are the same.  A context keeps its
default name and first contents, and the default store is the store of that name.  Stores come only
from contexts.  What is held by a store that there is changes only in an apply or a commit of one of
its editors, and an editor stays with the store that was current when it was made.  So leaving out
all steps made through editors of other stores changes neither a store nor what reading it gives. -/
theorem stores_isolated (initial : Contents) (first between : List Step) (step again : Step)
    (proper : ∀ next ∈ first ++ step :: between ++ [again], ∀ name, next.name? = some name →
      name.isProper = true) :
    let before := ((start initial).run first).2
    let after := (before.step step).2
    let later := (after.run between).2
    (∀ name, before.asked? step = some name → name.isKey = true →
      ∃ n, before.Gives step name n ∧ after.current = n ∧
        ((after.stores = before.stores ∧ ∃ earlier asking rest other,
            first = earlier ++ asking :: rest ∧
            ((start initial).run earlier).2.Gives asking other n) ∨
          n = before.stores.length ∧ ∃ context, before.context = some context ∧
            after.stores = before.stores ++ [{ contents := context.initial }])) ∧
    (∀ name other m n, before.Gives step name m → later.Gives again other n →
      (m = n ↔ (∀ next ∈ between, next.opens = false) ∧ name.same other = true)) ∧
    (∀ name c, step = .openContext name c → (∀ next ∈ between, next.opens = false) →
      (∃ given, later.context = some { defaultName := name, initial := c, given }) ∧
      later.step .useDefault = later.step (.use name)) ∧
    ((∀ name n, ¬ before.Gives step name n) → after.stores.length = before.stores.length) ∧
    (∀ k < before.stores.length, (after.store k).contents ≠ (before.store k).contents →
      ∃ n e, step.applied? = some n ∧ before.editors[n]? = some e ∧ e.store = k) ∧
    (step = .edit →
      later.editors[before.editors.length]?.map Editor.store = some before.current) ∧
    ∀ k, let apart := ((start initial).run (withoutOthers k (start initial) first)).2
      apart.store k = before.store k ∧ apart.current = before.current ∧
        (before.current = k → step.reads = true → (apart.step step).1 = (before.step step).1) := by
  intro before after later
  have linked : before.Linked := linked_run initial first
  have orderly : ∀ context ∈ before.context, context.Orderly :=
    orderly_run (by simp [start]) (linked_start initial) fun next hn =>
      proper next (by simp [hn])
  refine ⟨?_, ?_, ?_, ?_, ?_, ?_, ?_⟩
  · intro name asked key
    obtain ⟨n, gives⟩ := exists_gives asked key
    exact ⟨n, gives, gives.current, gives_new_or_given gives⟩
  · intro name other m n gives gives'
    refine gives_eq_iff linked orderly (fun next hn => proper next ?_) gives gives'
    simp only [List.append_assoc, List.mem_append] at hn ⊢
    exact Or.inr hn
  · rintro name c rfl quiet
    obtain ⟨more, kept⟩ := run_context (s := after) rfl quiet
    refine ⟨⟨_, kept⟩, ?_⟩
    simp only [Session.step, later, kept]
  · exact fun quiet => stores_length_of_not_gives quiet
  · intro k there differs
    exact step_frame there differs
  · rintro rfl
    exact editor_store_of_edit before between
  · intro k apart
    have agree := agree_run (Agree.refl k (start initial)) first
    exact ⟨agree.store_eq.symm, agree.current.symm, fun own reads => (agree.reads own reads).symm⟩

/-- Two stores of a context, and an editor that is applied when its store is no longer current. -/
def shelves : List Step :=
  [.openContext (.text "main") [(.text "b", .int 2)], .use (.text "x"), .edit,
    .put 0 .int (.text "b") (.int 3), .useDefault, .apply 0]

theorem stores_isolated_shelves :
    let before := ((start []).run shelves).2
    before.Gives (.use (.text "x")) (.text "x") 1 ∧
    (∀ n, ((before.step (.use (.text "x"))).2.run [.edit]).2.Gives .useDefault (.text "main") n →
      1 ≠ n) ∧
    before.held = [[], [(.text "b", .int 3)], [(.text "b", .int 2)]] ∧
    withoutOthers 2 (start []) shelves =
      [.openContext (.text "main") [(.text "b", .int 2)], .use (.text "x"), .edit, .useDefault] ∧
    ((start []).run (withoutOthers 2 (start []) shelves)).2.store 2 = before.store 2 := by
  obtain ⟨-, names, -, -, -, -, apart⟩ := stores_isolated [] shelves [.edit] (.use (.text "x"))
    .useDefault (by simp [shelves, Step.name?, Value.isProper])
  have gives : ((start []).run shelves).2.Gives (.use (.text "x")) (.text "x") 1 :=
    ⟨by cbv, by cbv⟩
  refine ⟨gives, fun n other same => ?_, by cbv, by cbv, (apart 2).1⟩
  have alike := ((names _ _ _ _ gives other).mp same).2
  simp [Value.same, Value.sameAtom] at alike

end Session

end Preferences.Store

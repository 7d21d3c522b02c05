import Mathlib.Data.List.Induction
import Mathlib.Tactic.SplitIfs
import Preferences.Store.Session

/-! # What a step does

A step that is made on an editor either has it record something, and then nothing but what that
editor has pending changes (`step_of_call`), or makes its changes, which is all in
`step_of_applied?`.  No other step, and no step on another editor, changes what an editor has
pending (`step_editors_of_ne`, `run_editors_of_ne`). -/

namespace Preferences.Store

namespace Step

/-- The editor that the step is made on, if it is made on one. -/
def editor? : Step → Option Nat
  | put n .. | remove n _ | clear n | apply n | commit n => some n
  | _ => none

/-- The editor whose changes the step makes, if it makes any. -/
def applied? : Step → Option Nat
  | apply n | commit n => some n
  | _ => none

/-- The key that the step has something recorded for. -/
def key? : Step → Option Value
  | put _ _ key _ | remove _ key => some key
  | _ => none

/-- The operation that the step has its editor record; none if the value cannot be converted. -/
def recorded? : Step → Option Operation
  | put _ kind key value => (kind.write key value).toOption
  | remove _ key => some (.remove key)
  | _ => none

def clears : Step → Bool
  | clear _ => true
  | _ => false

theorem editor?_of_applied? {step : Step} {n : Nat} (h : step.applied? = some n) :
    step.editor? = some n := by
  cases step <;> simp_all [applied?, editor?]

theorem applied?_of_editor? {step : Step} {n : Nat} (h : step.editor? = some n) :
    step.applied? = none ∨ step.applied? = some n := by
  cases step with
  | apply | commit => exact Or.inr h
  | _ => exact Or.inl rfl

theorem key?_of_recorded? {step : Step} {operation : Operation}
    (h : step.recorded? = some operation) : step.key? = some operation.key := by
  cases step with
  | put n kind key value =>
      simp only [recorded?, Kind.write] at h
      cases converted : kind.convert value with
      | error misuse =>
          rw [converted] at h
          cases h
      | ok stored? =>
          rw [converted] at h
          cases stored? <;> exact congrArg some (congrArg Operation.key (Option.some.inj h))
  | remove n key => exact congrArg some (congrArg Operation.key (Option.some.inj h))
  | _ => cases h

end Step

namespace Batch

/-- What an editor has recorded after these steps on it. -/
def ofSteps (steps : List Step) : Batch where
  clears := steps.any Step.clears
  operations := steps.filterMap Step.recorded?

/-- The batch with what one more step records. -/
def follow (b : Batch) (step : Step) : Batch where
  clears := b.clears || step.clears
  operations := b.operations ++ step.recorded?.toList

theorem ofSteps_keys {steps : List Step} {p : Value → Prop}
    (keys : ∀ step ∈ steps, ∀ key, step.key? = some key → p key) :
    ∀ o ∈ (ofSteps steps).operations, p o.key := by
  intro o ho
  obtain ⟨step, member, recorded⟩ := List.mem_filterMap.mp ho
  exact keys step member o.key (Step.key?_of_recorded? recorded)

theorem ofSteps_concat (steps : List Step) (step : Step) :
    ofSteps (steps ++ [step]) = (ofSteps steps).follow step := by
  unfold ofSteps follow
  rw [List.any_append, List.filterMap_append]
  cases h : step.recorded? <;> simp [h]

theorem foldl_follow (steps : List Step) : steps.foldl follow {} = ofSteps steps := by
  induction steps using List.reverseRecOn with
  | nil => rfl
  | append_singleton steps step ih =>
      rw [List.foldl_append, ih, ofSteps_concat]
      rfl

theorem follow_of_idle (b : Batch) {step : Step} (recorded : step.recorded? = none)
    (clears : step.clears = false) : b.follow step = b := by
  unfold follow
  rw [recorded, clears, Bool.or_false, Option.toList_none, List.append_nil]

end Batch

namespace Session

theorem run_cons (s : Session) (step : Step) (rest : List Step) :
    (s.run (step :: rest)).2 = ((s.step step).2.run rest).2 := rfl

theorem run_concat (s : Session) (steps : List Step) (step : Step) :
    (s.run (steps ++ [step])).2 = ((s.run steps).2.step step).2 := by
  rw [run_append]
  rfl

theorem store_setStore (s : Session) {n : Nat} (h : n < s.stores.length) (store : Store) :
    (s.setStore n store).store n = store := by
  simp [setStore, Session.store, h]

theorem setStore_store_self (s : Session) (n : Nat) : s.setStore n (s.store n) = s := by
  have e : s.stores.set n (s.store n) = s.stores := by
    rcases Nat.lt_or_ge n s.stores.length with lt | ge
    · simp [Session.store, lt]
    · exact List.set_eq_of_length_le ge
  unfold setStore
  rw [e]

theorem setStore_stores_length (s : Session) (n : Nat) (store : Store) :
    (s.setStore n store).stores.length = s.stores.length := List.length_set

/-! ### What editors have pending -/

/-- The session with something else pending in an editor. -/
def updatePending (s : Session) (n : Nat) (f : Batch → Batch) : Session :=
  { s with editors := s.editors.modify n fun e => { e with pending := f e.pending } }

theorem updatePending_getElem?_self {s : Session} {n : Nat} {e : Editor}
    (here : s.editors[n]? = some e) (f : Batch → Batch) :
    (s.updatePending n f).editors[n]? = some { e with pending := f e.pending } := by
  unfold updatePending
  dsimp only
  rw [List.getElem?_modify_eq, here]
  rfl

theorem updatePending_getElem?_of_ne (s : Session) {m n : Nat} (h : m ≠ n) (f : Batch → Batch) :
    (s.updatePending m f).editors[n]? = s.editors[n]? := by
  unfold updatePending
  dsimp only
  rw [List.getElem?_modify_ne _ _ h]

theorem updatePending_congr {s : Session} {n : Nat} {f g : Batch → Batch}
    (h : ∀ e, s.editors[n]? = some e → f e.pending = g e.pending) :
    s.updatePending n f = s.updatePending n g := by
  unfold updatePending
  congr 1
  apply List.ext_getElem?
  intro k
  rw [List.getElem?_modify, List.getElem?_modify]
  by_cases same : n = k
  · subst same
    cases at_n : s.editors[n]? with
    | none => rfl
    | some e => simp [h e at_n]
  · simp [same]

theorem updatePending_eq_self {s : Session} {n : Nat} {f : Batch → Batch}
    (h : ∀ e, s.editors[n]? = some e → f e.pending = e.pending) : s.updatePending n f = s := by
  have e : s.updatePending n id = s := by
    unfold updatePending
    rw [show (fun e : Editor => { e with pending := id e.pending }) = id from rfl,
      List.modify_id]
  exact (updatePending_congr (g := id) h).trans e

theorem updatePending_updatePending (s : Session) (n : Nat) (f g : Batch → Batch) :
    (s.updatePending n f).updatePending n g = s.updatePending n (g ∘ f) := by
  unfold updatePending
  dsimp only
  rw [List.modify_modify_eq]
  rfl

theorem updatePending_comm (s : Session) {m n : Nat} (h : m ≠ n) (f g : Batch → Batch) :
    (s.updatePending m f).updatePending n g = (s.updatePending n g).updatePending m f := by
  unfold updatePending
  dsimp only
  rw [List.modify_modify_ne _ _ _ h]

/-! ### One step -/

/-- A step on an editor that there is not changes nothing. -/
theorem step_of_missing {s : Session} {step : Step} {n : Nat} (on : step.editor? = some n)
    (missing : s.editors[n]? = none) : (s.step step).2 = s := by
  cases step with
  | put m _ _ _ | remove m _ | clear m | apply m | commit m =>
      obtain rfl : m = n := Option.some.inj on
      simp [Session.step, record, applyEditor, missing]
  | _ => cases on

theorem step_of_call (s : Session) {step : Step} {n : Nat} (on : step.editor? = some n)
    (call : step.applied? = none) : (s.step step).2 = s.updatePending n (·.follow step) := by
  cases here : s.editors[n]? with
  | none =>
      rw [step_of_missing on here]
      exact (updatePending_eq_self (by simp [here])).symm
  | some editor =>
      have recorded : ∀ batch : Batch, editor.pending.follow step = batch →
          s.setPending n batch = s.updatePending n (·.follow step) := by
        rintro batch rfl
        refine updatePending_congr (f := fun _ => editor.pending.follow step) fun e he => ?_
        rw [Option.some.inj (here.symm.trans he)]
      cases step with
      | put m kind key value =>
          obtain rfl : m = n := Option.some.inj on
          cases written : kind.write key value with
          | error misuse =>
              simp only [Session.step, record, here, written]
              refine (updatePending_eq_self fun e _ => ?_).symm
              exact e.pending.follow_of_idle
                (by simp [Step.recorded?, written, Except.toOption]) rfl
          | ok operation =>
              simp only [Session.step, record, here, written]
              refine recorded _ ?_
              simp [Batch.follow, Batch.record, Step.recorded?, Step.clears, written,
                Except.toOption]
      | remove m key =>
          obtain rfl : m = n := Option.some.inj on
          simp only [Session.step, record, here]
          refine recorded _ ?_
          simp [Batch.follow, Batch.record, Step.recorded?, Step.clears]
      | clear m =>
          obtain rfl : m = n := Option.some.inj on
          simp only [Session.step, here]
          refine recorded _ ?_
          simp [Batch.follow, Step.recorded?, Step.clears]
      | apply | commit => cases call
      | _ => cases on

/-- Steps that have an editor record something change only what it has pending. -/
theorem run_of_calls (s : Session) {steps : List Step} {n : Nat}
    (on : ∀ step ∈ steps, step.editor? = some n) (calls : ∀ step ∈ steps, step.applied? = none) :
    (s.run steps).2 = s.updatePending n (steps.foldl Batch.follow ·) := by
  induction steps generalizing s with
  | nil => exact (updatePending_eq_self fun e _ => rfl).symm
  | cons step rest ih =>
      have first := s.step_of_call (on step (by simp)) (calls step (by simp))
      have on' : ∀ t ∈ rest, t.editor? = some n := fun t ht => on t (by simp [ht])
      have calls' : ∀ t ∈ rest, t.applied? = none := fun t ht => calls t (by simp [ht])
      rw [run_cons, first, ih _ on' calls', updatePending_updatePending]
      rfl

theorem step_of_applied? (s : Session) {step : Step} {n : Nat} (h : step.applied? = some n) :
    ∃ result, s.step step = s.applyEditor n result := by
  cases step with
  | apply m =>
      obtain rfl : m = n := Option.some.inj h
      exact ⟨.done, rfl⟩
  | commit m =>
      obtain rfl : m = n := Option.some.inj h
      exact ⟨.flag true, rfl⟩
  | _ => cases h

/-- An apply or a commit changes the store, and what the editor has pending if no fault comes
out. -/
theorem applyEditor_snd {s : Session} {n : Nat} {e : Editor} (here : s.editors[n]? = some e)
    (result : Result) :
    (s.applyEditor n result).2 =
      (s.setStore e.store ((s.store e.store).apply e.pending).store).updatePending n fun b =>
        if ((s.store e.store).apply e.pending).fault.isSome then b else {} := by
  unfold applyEditor
  simp only [here]
  cases ((s.store e.store).apply e.pending).fault with
  | none => rfl
  | some fault => exact (updatePending_eq_self fun _ _ => rfl).symm

theorem applyEditor_store {s : Session} {n : Nat} {e : Editor} (here : s.editors[n]? = some e)
    (there : e.store < s.stores.length) (result : Result) :
    (s.applyEditor n result).2.store e.store = ((s.store e.store).apply e.pending).store := by
  rw [applyEditor_snd here]
  exact s.store_setStore there _

theorem applyEditor_getElem? {s : Session} {n : Nat} {e : Editor} (here : s.editors[n]? = some e)
    (result : Result) :
    (s.applyEditor n result).2.editors[n]? = some { e with pending :=
      if ((s.store e.store).apply e.pending).fault.isSome then e.pending else {} } := by
  rw [applyEditor_snd here]
  exact updatePending_getElem?_self (s := s.setStore e.store _) here _

theorem applyEditor_isOk {s : Session} {n : Nat} {e : Editor} (here : s.editors[n]? = some e)
    (result : Result) :
    (s.applyEditor n result).1.result.isOk = ((s.store e.store).apply e.pending).fault.isNone := by
  unfold applyEditor
  simp only [here]
  cases ((s.store e.store).apply e.pending).fault <;> rfl

theorem step_editors_prefix (s : Session) {step : Step} (on : step.editor? = none) :
    s.editors <+: (s.step step).2.editors := by
  cases step with
  | edit => exact List.prefix_append _ _
  | use | useDefault =>
      simp only [Session.step]
      split
      · exact List.prefix_rfl
      · unfold useStore
        split_ifs
        · exact List.prefix_rfl
        · split <;> exact List.prefix_rfl
  | contains | listen =>
      simp only [Session.step]
      split_ifs <;> exact List.prefix_rfl
  | unlisten =>
      simp only [Session.step]
      split <;> exact List.prefix_rfl
  | read | getAll | openContext => exact List.prefix_rfl
  | _ => cases on

theorem step_editors_of_ne {s : Session} {step : Step} {n : Nat} {e : Editor}
    (here : s.editors[n]? = some e) (other : step.editor? ≠ some n) :
    (s.step step).2.editors[n]? = some e := by
  cases on : step.editor? with
  | none =>
      obtain ⟨more, grown⟩ := s.step_editors_prefix on
      rw [← grown, List.getElem?_append_left (List.getElem?_eq_some_iff.mp here).1]
      exact here
  | some m =>
      have ne : m ≠ n := fun same => other (on.trans (congrArg some same))
      cases there : s.editors[m]? with
      | none =>
          rw [step_of_missing on there]
          exact here
      | some e' =>
          rcases Step.applied?_of_editor? on with call | applied
          · rw [s.step_of_call on call, updatePending_getElem?_of_ne _ ne]
            exact here
          · obtain ⟨result, same⟩ := s.step_of_applied? applied
            rw [same, applyEditor_snd there, updatePending_getElem?_of_ne _ ne]
            exact here

theorem run_editors_of_ne {s : Session} {steps : List Step} {n : Nat} {e : Editor}
    (here : s.editors[n]? = some e) (others : ∀ step ∈ steps, step.editor? ≠ some n) :
    (s.run steps).2.editors[n]? = some e := by
  induction steps generalizing s with
  | nil => exact here
  | cons step rest ih =>
      rw [run_cons]
      exact ih (step_editors_of_ne here (others step (by simp))) fun t ht => others t (by simp [ht])

end Session

end Preferences.Store

import Mathlib.Data.List.Permutation
import Preferences.Proofs.Store.Linked

/-! # What stays pending

An apply or a commit that comes to its end leaves nothing pending, so applying the editor again does
nothing, whatever other editors have done in between.  If a fault comes out of it, which a listener
may raise when the store has been changed already, everything stays pending, and the next apply
makes the same change once more (`pending_after_apply`), over what others have written since
(`apply_repeats_after_fault`). -/

namespace Preferences.Store

theorem apply_empty (s : Store) : s.apply {} = { store := s } := rfl

namespace Session

variable {s : Session} {n : Nat} {e : Editor} {step : Step}

theorem step_apply_of_empty (here : s.editors[n]? = some e) (empty : e.pending = {})
    (applies : step.applied? = some n) :
    (s.step step).2 = s ∧ (s.step step).1.result.isOk = true ∧ (s.step step).1.events = [] := by
  obtain ⟨result, same⟩ := s.step_of_applied? applies
  have course : (s.store e.store).apply e.pending = { store := s.store e.store } := by
    rw [empty, apply_empty]
  rw [same]
  refine ⟨?_, ?_, ?_⟩
  · rw [applyEditor_snd here, course, s.setStore_store_self]
    refine updatePending_eq_self fun e' he => ?_
    rw [← Option.some.inj (here.symm.trans he), empty]
    rfl
  · rw [applyEditor_isOk here, course]
    rfl
  · unfold applyEditor
    simp only [here, course]
    rfl

/-- An apply or a commit leaves nothing pending if it succeeds, and all that was if it fails. -/
theorem step_apply_pending (here : s.editors[n]? = some e) (applies : step.applied? = some n) :
    (s.step step).2.editors[n]? =
      some { e with pending := if (s.step step).1.result.isOk then {} else e.pending } := by
  obtain ⟨result, same⟩ := s.step_of_applied? applies
  rw [same, applyEditor_getElem? here, applyEditor_isOk here]
  cases ((s.store e.store).apply e.pending).fault <;> rfl

/-- **What an apply leaves pending.**  After an apply or a commit the editor has nothing pending
exactly if no fault came out or nothing was pending before.  Then a later apply of it, after any
steps that others have made, changes nothing and calls no listener.  Otherwise a later apply makes
the same change again, of what the store holds by then. -/
theorem pending_after_apply (linked : s.Linked) (here : s.editors[n]? = some e)
    (applies : step.applied? = some n) :
    let after := s.step step
    (after.2.editors[n]? = some { e with pending := {} } ↔
      after.1.result.isOk = true ∨ e.pending = {}) ∧
    ∀ (others : List Step) (again : Step), (∀ other ∈ others, other.editor? ≠ some n) →
      again.applied? = some n →
      let later := (after.2.run others).2
      (after.1.result.isOk = true ∨ e.pending = {} →
        (later.step again).2 = later ∧ (later.step again).1.result.isOk = true ∧
          (later.step again).1.events = []) ∧
      (after.1.result.isOk = false →
        (later.step again).2.store e.store = ((later.store e.store).apply e.pending).store) := by
  intro after
  have pending := step_apply_pending here applies
  refine ⟨?_, ?_⟩
  · rw [pending]
    by_cases ok : after.1.result.isOk = true
    · simp [ok, after]
    · simp [ok, after]
  · intro others again other applies_again later
    have kept : later.editors[n]? = _ := run_editors_of_ne pending other
    refine ⟨?_, ?_⟩
    · intro h
      refine step_apply_of_empty kept ?_ applies_again
      rcases h with ok | empty
      · exact if_pos ok
      · rw [empty, ite_self]
    · intro failed
      obtain ⟨result, same⟩ := later.step_of_applied? applies_again
      have all : later.editors[n]? = some e := by
        rw [kept, show (s.step step).1.result.isOk = false from failed]
        rfl
      have there : e.store < later.stores.length := ((linked.step step).run others).store_lt all
      rw [same, applyEditor_store all there]

/-- A session with a listener that raises when it is told of the key that the only editor writes. -/
def raising : Session :=
  ((start []).run [.edit, .put 0 .int (.text "a") (.int 1), .listen ⟨"l", .raise (.text "a")⟩]).2

/-- Steps that write the same key by another editor, when the listener is gone. -/
def overwriting : List Step :=
  [.unlisten "l", .edit, .put 1 .int (.text "a") (.int 2), .apply 1]

theorem pending_after_apply_raising :
    let first := raising.step (.apply 0)
    let later := (first.2.run overwriting).2
    first.2.editors[0]? ≠ some { store := 0 } ∧
      (later.step (.commit 0)).2.store 0 =
        ((later.store 0).apply { operations := [.put (.text "a") (.int 1)] }).store := by
  have here : raising.editors[0]? =
      some { store := 0, pending := { operations := [.put (.text "a") (.int 1)] } } := rfl
  have linked : raising.Linked := linked_run _ _
  have applies : (Step.apply 0).applied? = some 0 := rfl
  have failed : (raising.step (.apply 0)).1.result.isOk = false := by cbv
  have others : ∀ other ∈ overwriting, other.editor? ≠ some 0 := by decide
  obtain ⟨empty_iff, after⟩ := pending_after_apply linked here applies
  refine ⟨?_, (after overwriting (.commit 0) others rfl).2 failed⟩
  intro empty
  rcases empty_iff.mp empty with ok | nothing
  · rw [failed] at ok
    exact absurd ok (by decide)
  · cases nothing

/-- The first apply has written its value when the listener raises.  Applied again, the editor
writes over the newer value. -/
theorem apply_repeats_after_fault :
    let first := raising.step (.apply 0)
    let later := (first.2.run overwriting).2
    first.1.result.isOk = false ∧ (first.2.store 0).contents = [(.text "a", .int 1)] ∧
      (later.store 0).contents = [(.text "a", .int 2)] ∧
      ((later.step (.apply 0)).2.store 0).contents = [(.text "a", .int 1)] :=
  ⟨by cbv, by cbv, by cbv, by cbv⟩

end Session

end Preferences.Store

import Mathlib.Data.List.Permutation
import Preferences.Proofs.Store.Conversion
import Preferences.Proofs.Store.Linked
import Preferences.Proofs.Store.Outcome

/-! # Applying an editor

Where a store has no listeners, an apply makes the change of the batch and nothing else
(`apply_of_quiet`).  So calls on an editor that are then applied leave what `Batch.Leaves` says
(`run_calls_apply_leaves`).  An apply that meets a key that cannot be one breaks off: it neither
takes back what it has done nor does what is left (`apply_breaks_off`), so it is not the case that
an apply that fails leaves the store as it was (`apply_not_all_or_nothing`). -/

namespace Preferences.Store

/-- Without listeners an apply makes the change of the batch, as far as that comes. -/
theorem apply_of_quiet (b : Batch) {s : Store} (quiet : s.listeners = []) :
    s.apply b = { store := { s with contents := (b.run s.contents).contents }
                  fault := (b.run s.contents).misuse.map Fault.misused } := by
  cases clean : (b.run s.contents).misuse with
  | none => exact apply_of_listeners_eq_nil b s quiet clean
  | some misuse =>
      unfold apply applyWithin
      simp only [clean]
      rfl

namespace Step

/-- Whether the step has the editor of this number put or remove something under a text, or clear
the store. -/
def isCallOf (n : Nat) (step : Step) : Bool :=
  step.editor? == some n && step.applied?.isNone && step.key?.all Value.isText

theorem isCallOf_iff {n : Nat} {step : Step} :
    step.isCallOf n = true ↔ step.editor? = some n ∧ step.applied? = none ∧
      ∀ key, step.key? = some key → key.isText = true := by
  unfold isCallOf
  rw [Bool.and_eq_true, Bool.and_eq_true, beq_iff_eq, Option.isNone_iff_eq_none, Option.all_eq_true,
    and_assoc]

/-- What a call on an editor has it record: for a put what its kind stores for the value, or a
removal where that is nothing; no operation where the kind refuses the value, and none to clear the
store. -/
inductive Records : Step → Option Operation → Prop
  | put {n kind key v stored} (stores : kind.Stores v (some stored)) :
    Records (.put n kind key v) (some (.put key stored))
  | nothing {n kind key v} (stores : kind.Stores v none) :
    Records (.put n kind key v) (some (.remove key))
  | refused {n kind key v} (fails : ∀ stored?, ¬kind.Stores v stored?) :
    Records (.put n kind key v) none
  | remove {n key} : Records (.remove n key) (some (.remove key))
  | clear {n} : Records (.clear n) none

theorem records_recorded? {n : Nat} {call : Step} (on : call.isCallOf n = true) :
    call.Records call.recorded? := by
  obtain ⟨of_editor, not_applied, -⟩ := isCallOf_iff.mp on
  cases call with
  | put n kind key v =>
      simp only [recorded?, Kind.write]
      cases converted : kind.convert v with
      | error misuse =>
          refine .refused fun stored? stores => ?_
          obtain ⟨converted?, same, -⟩ := stores.exists_convert
          rw [converted] at same
          cases same
      | ok stored? =>
          have stores := Kind.stores_of_convert converted
          cases stored? with
          | none => exact .nothing stores
          | some stored => exact .put stores
  | remove => exact .remove
  | clear => exact .clear
  | apply | commit => cases not_applied
  | _ => cases of_editor

end Step

/-- The batch is the record of the calls: it clears the store if one of them does, and has the
operations that they record, in their order. -/
structure Batch.IsRecordOf (b : Batch) (calls : List Step) : Prop where
  clears : b.clears = true ↔ ∃ n, Step.clear n ∈ calls
  operations : ∃ recorded : List (Option Operation),
    List.Forall₂ Step.Records calls recorded ∧ b.operations = recorded.reduceOption

theorem Batch.isRecordOf_ofSteps {n : Nat} {calls : List Step}
    (on : ∀ call ∈ calls, call.isCallOf n = true) : (Batch.ofSteps calls).IsRecordOf calls where
  clears := by
    unfold ofSteps
    rw [List.any_eq_true]
    constructor
    · rintro ⟨call, member, clears⟩
      cases call with
      | clear m => exact ⟨m, member⟩
      | _ => cases clears
    · rintro ⟨m, member⟩
      exact ⟨_, member, rfl⟩
  operations := by
    refine ⟨calls.map Step.recorded?, ?_, ?_⟩
    · rw [List.forall₂_map_right_iff, List.forall₂_same]
      exact fun call member => Step.records_recorded? (on call member)
    · unfold ofSteps List.reduceOption
      rw [List.filterMap_map]
      rfl

namespace Session

section apply
variable {s : Session} {n : Nat} {e : Editor} {step : Step}

theorem step_apply_of_quiet (here : s.editors[n]? = some e) (there : e.store < s.stores.length)
    (quiet : (s.store e.store).listeners = []) (applies : step.applied? = some n) :
    ((s.step step).1.result.isOk = (e.pending.run (s.store e.store).contents).misuse.isNone) ∧
    ((s.step step).2.store e.store).contents = (e.pending.run (s.store e.store).contents).contents ∧
    (s.step step).2.editors[n]? = some { e with pending :=
      if (e.pending.run (s.store e.store).contents).misuse.isSome then e.pending else {} } := by
  obtain ⟨result, same⟩ := s.step_of_applied? applies
  have course := apply_of_quiet e.pending quiet
  rw [same]
  refine ⟨?_, ?_, ?_⟩
  · rw [applyEditor_isOk here, course]
    cases (e.pending.run (s.store e.store).contents).misuse <;> rfl
  · rw [applyEditor_store here there, course]
  · rw [applyEditor_getElem? here, course]
    cases (e.pending.run (s.store e.store).contents).misuse <;> rfl

/-- Calls on a new editor leave their batch pending, and no store changes. -/
theorem run_calls {m : Nat} {calls : List Step} (fresh : s.editors[n]? = some { store := m })
    (on : ∀ call ∈ calls, call.isCallOf n = true) :
    (s.run calls).2.editors[n]? = some { store := m, pending := Batch.ofSteps calls } ∧
      (s.run calls).2.stores = s.stores := by
  have recorded : (s.run calls).2 = s.updatePending n (calls.foldl Batch.follow ·) :=
    s.run_of_calls (fun call h => (Step.isCallOf_iff.mp (on call h)).1)
      fun call h => (Step.isCallOf_iff.mp (on call h)).2.1
  rw [recorded]
  refine ⟨?_, rfl⟩
  rw [updatePending_getElem?_self fresh, Batch.foldl_follow]

/-- **Calls on an editor, then applied.**  Whatever a new editor of a store without listeners has
been told to put and remove under texts, and whenever it has been told to clear the store: the batch
of the calls is their record, each put with what its kind stores for the value, the apply succeeds,
the store holds what this batch leaves, and nothing is pending. -/
theorem run_calls_apply_leaves {m : Nat} {calls : List Step}
    (linked : s.Linked) (fresh : s.editors[n]? = some { store := m })
    (quiet : (s.store m).listeners = []) (keyed : (s.store m).contents.TextKeyed)
    (on : ∀ call ∈ calls, call.isCallOf n = true) :
    let after := s.run (calls ++ [.apply n])
    (Batch.ofSteps calls).IsRecordOf calls ∧
      (∀ contents, (Batch.ofSteps calls).Leaves (s.store m).contents contents ↔
        contents = (after.2.store m).contents) ∧
      after.2.editors[n]? = some { store := m } ∧
      (after.1.getLast?.map fun reply => reply.result.isOk) = some true := by
  have texts : ∀ o ∈ (Batch.ofSteps calls).operations, o.key.isText = true :=
    Batch.ofSteps_keys fun call h => (Step.isCallOf_iff.mp (on call h)).2.2
  obtain ⟨clean, contents⟩ := Batch.run_of_isKey
    (fun o ho => Value.isKey_of_isText (texts o ho)) (s.store m).contents
  obtain ⟨here, unchanged⟩ := run_calls fresh on
  have same : (s.run calls).2.store m = s.store m := by
    unfold Session.store
    rw [unchanged]
  have there : m < (s.run calls).2.stores.length := (linked.run calls).store_lt here
  have quiet' : ((s.run calls).2.store m).listeners = [] := by
    rw [same]
    exact quiet
  have applies : (Step.apply n).applied? = some n := rfl
  have applied := step_apply_of_quiet here there quiet' applies
  rw [same, clean, contents] at applied
  obtain ⟨ok, stored, pending⟩ := applied
  intro after
  have last : after.2 = ((s.run calls).2.step (.apply n)).2 := s.run_concat calls _
  have reply : after.1.getLast? = some ((s.run calls).2.step (.apply n)).1 := by
    simp [after, run_append, run]
  refine ⟨Batch.isRecordOf_ofSteps on, ?_, ?_, ?_⟩
  · rw [last, stored]
    have leaves := Batch.leaves_outcome keyed _ texts
    exact fun contents => ⟨fun h => h.unique leaves, fun h => h ▸ leaves⟩
  · rw [last, pending]
    rfl
  · rw [reply, Option.map_some, ok]
    rfl

/-- A key that is rewritten stays, and one that is removed, here by a text that is nothing, and put
again moves.  What is stored is of the kinds of the puts: a text, a number and a list come to be a
number, a text and a set. -/
theorem run_calls_apply_leaves_moved :
    let s := ((start [(.text "a", .int 1), (.text "b", .int 2)]).run [.edit]).2
    let calls : List Step := [.put 0 .int (.text "b") (.text " 1_0"),
      .put 0 .text (.text "a") .null, .put 0 .float (.text "c") (.int 3),
      .put 0 .text (.text "a") (.int 5),
      .put 0 .textSet (.text "d") (.list [.text "y", .text "x", .text "y"]),
      .put 0 .bool (.text "e") (.text ""), .put 0 .textSet (.text "e") .null]
    let held : Contents := [(.text "b", .int 10), (.text "c", .float ⟨false, 0x4008000000000000⟩),
      (.text "a", .text "5"), (.text "d", .frozenset [.text "y", .text "x"])]
    s.Linked ∧ s.editors[0]? = some { store := 0 } ∧ (s.store 0).listeners = [] ∧
      (s.store 0).contents.TextKeyed ∧ (∀ call ∈ calls, call.isCallOf 0 = true) ∧
      ((s.run (calls ++ [.apply 0])).2.store 0).contents = held ∧
      (Batch.ofSteps calls).Leaves (s.store 0).contents held ∧
      (Batch.ofSteps calls).IsRecordOf calls := by
  intro s calls held
  have linked : s.Linked := linked_run _ _
  have fresh : s.editors[0]? = some { store := 0 } := rfl
  have keyed : (s.store 0).contents.TextKeyed := ⟨by decide, by decide⟩
  have on : ∀ call ∈ calls, call.isCallOf 0 = true := by decide
  have left : held = ((s.run (calls ++ [.apply 0])).2.store 0).contents := by decide +kernel
  obtain ⟨record, leaves, -⟩ := run_calls_apply_leaves linked fresh rfl keyed on
  exact ⟨linked, fresh, rfl, keyed, on, left.symm, (leaves held).mpr left, record⟩

/-- **An apply breaks off at a key that cannot be one.**  On a store without listeners an apply or
a commit fails exactly if it comes to an operation that is blocked.  Then the store holds what the
clearing and the operations before that one have made, which is what it held if there are none, and
everything is still pending; otherwise it holds what the whole batch makes, and nothing is.  Where
every key can be one, it succeeds. -/
theorem apply_breaks_off (linked : s.Linked) (here : s.editors[n]? = some e)
    (quiet : (s.store e.store).listeners = []) (applies : step.applied? = some n) :
    let before := (s.store e.store).contents
    let after := s.step step
    (after.1.result.isOk = false ↔ ∃ k, e.pending.StopsAt before k) ∧
    (∀ k, e.pending.StopsAt before k →
      (after.2.store e.store).contents = e.pending.contentsAt before k ∧
        after.2.editors[n]? = some e) ∧
    (e.pending.StopsAt before 0 → e.pending.clears = false →
      (after.2.store e.store).contents = before) ∧
    (after.1.result.isOk = true →
      (after.2.store e.store).contents = e.pending.outcome before ∧
        after.2.editors[n]? = some { e with pending := {} }) ∧
    ((∀ o ∈ e.pending.operations, o.key.isKey = true) → after.1.result.isOk = true) := by
  obtain ⟨ok, stored, pending⟩ := step_apply_of_quiet here (linked.store_lt here) quiet applies
  intro before after
  have stops : ∀ k, e.pending.StopsAt before k → after.1.result.isOk = false := by
    intro k h
    rw [ok, (Batch.run_of_stopsAt h).1]
    rfl
  have stopped : ∀ k, e.pending.StopsAt before k →
      (after.2.store e.store).contents = e.pending.contentsAt before k := by
    intro k h
    exact stored.trans (Batch.run_of_stopsAt h).2
  have goes : (∀ k, ¬ e.pending.StopsAt before k) → after.1.result.isOk = true := by
    intro h
    rw [ok, (Batch.run_of_not_stopsAt h).1]
    rfl
  refine ⟨⟨?_, fun ⟨k, h⟩ => stops k h⟩, ?_, ?_, ?_, ?_⟩
  · intro failed
    by_contra none_stops
    rw [goes (not_exists.mp none_stops)] at failed
    exact absurd failed (by decide)
  · intro k h
    rw [(Batch.run_of_stopsAt h).1] at pending
    exact ⟨stopped k h, pending⟩
  · intro at_once unclear
    rw [stopped 0 at_once, Batch.contentsAt_zero unclear]
  · intro succeeded
    have none_stops : ∀ k, ¬ e.pending.StopsAt before k := by
      intro k h
      rw [stops k h] at succeeded
      exact absurd succeeded (by decide)
    obtain ⟨clean, contents⟩ := Batch.run_of_not_stopsAt none_stops
    rw [clean] at pending
    exact ⟨stored.trans contents, pending⟩
  · exact fun keys => goes (Batch.not_stopsAt_of_isKey keys before)

/-- What clears a store, puts a number, and then comes to a list as a key. -/
def stopping : Batch where
  clears := true
  operations := [.put (.text "b") (.int 2), .put (.list []) (.int 3)]

/-- A session whose only editor has that pending. -/
def stuck : Session :=
  ((start [(.text "a", .int 1)]).run [.edit, .clear 0, .put 0 .int (.text "b") (.int 2),
    .put 0 .int (.list []) (.int 3)]).2

theorem stuck_editor : stuck.editors[0]? = some { store := 0, pending := stopping } := rfl

theorem apply_breaks_off_stuck :
    stopping.StopsAt (stuck.store 0).contents 1 ∧
      (stuck.step (.apply 0)).1.result.isOk = false ∧
      ((stuck.step (.apply 0)).2.store 0).contents = [(.text "b", .int 2)] := by
  have stops : stopping.StopsAt (stuck.store 0).contents 1 := by
    refine ⟨⟨.put (.list []) (.int 3), rfl, rfl, nofun⟩, ?_⟩
    rintro k lt operation at_k ⟨bad, -⟩
    obtain rfl : k = 0 := by omega
    rw [← Option.some.inj at_k] at bad
    exact absurd bad (by decide)
  have quiet : (stuck.store 0).listeners = [] := rfl
  have applies : (Step.apply 0).applied? = some 0 := rfl
  obtain ⟨fails, stopped, -⟩ := apply_breaks_off (linked_run _ _) stuck_editor quiet applies
  have held : stopping.contentsAt (stuck.store 0).contents 1 = [(.text "b", .int 2)] := by cbv
  exact ⟨stops, fails.mpr ⟨1, stops⟩, (stopped 1 stops).1.trans held⟩

/-- The store that a failed apply leaves need not be the one it has found. -/
theorem apply_not_all_or_nothing :
    (stuck.step (.apply 0)).1.result.isOk = false ∧
      ((stuck.step (.apply 0)).2.store 0).contents ≠ (stuck.store 0).contents := by
  have fails : (stuck.step (.apply 0)).1.result.isOk = false := by cbv
  have left : ((stuck.step (.apply 0)).2.store 0).contents = [(.text "b", .int 2)] := by cbv
  have held : (stuck.store 0).contents = [(.text "a", .int 1)] := rfl
  refine ⟨fails, ?_⟩
  rw [left, held]
  decide

end apply

end Session

end Preferences.Store

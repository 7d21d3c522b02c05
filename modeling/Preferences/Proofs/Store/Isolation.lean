import Preferences.Proofs.Store.Applying
import Preferences.Proofs.Store.History

/-! # Editors of one store

However the steps on the editors of a store are mixed, what an editor has pending is what has been
recorded on it since it was last applied, and the store holds what the applied batches have made of
its first contents, one after the other (`run_isolated`).  `Follows` is the invariant, which every
step keeps (`Follows.step`).  Steps on two editors, of which one only has something recorded, may be
exchanged (`step_comm`), on stores with listeners too. -/

namespace Preferences.Store

/-- Whether the step is on an editor of the store, with texts for keys, or makes one, or reads. -/
def Step.isPlain : Step → Bool
  | .put _ _ key _ | .remove _ key => key.isText
  | .edit | .clear _ | .apply _ | .commit _ | .read .. | .contains _ | .getAll => true
  | .openContext .. | .use _ | .useDefault | .listen _ | .unlisten _ => false

/-- Whether the step only reads, or puts a value that cannot be converted. -/
def Step.isIdle : Step → Bool
  | .put _ kind _ value => (kind.convert value).toOption.isNone
  | .read .. | .contains _ | .getAll => true
  | _ => false

theorem Step.isText_of_isPlain {step : Step} (plain : step.isPlain = true) :
    ∀ key, step.key? = some key → key.isText = true := by
  intro key h
  cases step with
  | put | remove =>
      rw [← Option.some.inj h]
      exact plain
  | _ => cases h

namespace Session

/-- Reading, and trying to put what cannot be converted, changes nothing, whatever it gives. -/
theorem step_of_isIdle (s : Session) {step : Step} (idle : step.isIdle = true) :
    (s.step step).2 = s := by
  cases step with
  | put n kind key value =>
      have nothing : (Step.put n kind key value).recorded? = none := by
        cases converted : kind.convert value with
        | error misuse => simp [Step.recorded?, Kind.write, converted, bind, Except.bind,
            Except.toOption]
        | ok stored =>
            simp [Step.isIdle, converted, Except.toOption] at idle
      rw [s.step_of_call rfl rfl]
      exact updatePending_eq_self fun e _ => e.pending.follow_of_idle nothing rfl
  | read | getAll => rfl
  | contains key =>
      simp only [Session.step]
      split_ifs <;> rfl
  | _ => cases idle

def applyAll (batches : List Batch) (c : Contents) : Contents :=
  batches.foldl (fun c b => (b.run c).contents) c

/-- The session is as its history says: one store without listeners, which holds what the applied
batches have made, and editors that have pending what they have recorded. -/
structure Follows (initial : Contents) (history : List Step) (s : Session) : Prop where
  current : s.current = 0
  stores : s.stores = [{ contents := applyAll (appliedBatches history) initial }]
  editors : s.editors = (List.range (edits history)).map fun n =>
    { store := 0, pending := recordedBy n history }

section follows
variable {initial : Contents} {history : List Step} {s : Session} {n : Nat} {next : Step}

theorem follows_start (initial : Contents) : Follows initial [] (start initial) := ⟨rfl, rfl, rfl⟩

theorem Follows.editor (h : Follows initial history s) (made : n < edits history) :
    s.editors[n]? = some { store := 0, pending := recordedBy n history } := by
  rw [h.editors, List.getElem?_map, List.getElem?_range made]
  rfl

theorem Follows.missing (h : Follows initial history s) (not_made : edits history ≤ n) :
    s.editors[n]? = none := by
  rw [h.editors, List.getElem?_map, List.getElem?_eq_none (by simpa using not_made)]
  rfl

theorem Follows.store (h : Follows initial history s) :
    s.store 0 = { contents := applyAll (appliedBatches history) initial } := by
  unfold Session.store
  rw [h.stores]
  rfl

theorem applyAll_concat (initial : Contents) (applied : next.applied? = some n) :
    applyAll (appliedBatches (history ++ [next])) initial =
      ((recordedBy n history).run (applyAll (appliedBatches history) initial)).contents := by
  unfold applyAll
  rw [appliedBatches_concat, applied, List.foldl_append]
  rfl

theorem applyAll_concat_of_none (initial : Contents) (applied : next.applied? = none) :
    applyAll (appliedBatches (history ++ [next])) initial =
      applyAll (appliedBatches history) initial := by
  rw [appliedBatches_concat, applied]
  simp

/-- A step that is on no editor that there is, and makes none, leaves all as it is. -/
theorem Follows.idle (h : Follows initial history s) (no_edit : next.isEdit = false)
    (idle : ∀ n < edits history, next.editor? ≠ some n) :
    Follows initial (history ++ [next]) s := by
  refine ⟨h.current, ?_, ?_⟩
  · rw [h.stores]
    cases applied : next.applied? with
    | none => rw [applyAll_concat_of_none initial applied]
    | some n =>
        -- An editor that has not been made has recorded nothing, so its batch changes nothing.
        have not_made : edits history ≤ n := by
          by_contra made
          exact idle n (by omega) (Step.editor?_of_applied? applied)
        rw [applyAll_concat initial applied, recordedBy_of_le n history not_made]
        rfl
  · rw [h.editors, edits_concat, no_edit]
    refine List.map_congr_left fun n made => ?_
    rw [recordedBy_concat_of_ne n history next (idle n (List.mem_range.mp made))]

/-- The editors after a step on one of them, as its history says. -/
theorem Follows.editors_update (h : Follows initial history s) (on : next.editor? = some n)
    {f : Batch → Batch} (pending : f (recordedBy n history) = recordedBy n (history ++ [next])) :
    (s.updatePending n f).editors = (List.range (edits (history ++ [next]))).map fun n =>
      { store := 0, pending := recordedBy n (history ++ [next]) } := by
  have no_edit : next.isEdit = false := by
    cases next <;> first | rfl | cases on
  rw [edits_concat, no_edit]
  apply List.ext_getElem?
  intro k
  unfold updatePending
  dsimp only
  rw [List.getElem?_modify, h.editors, List.getElem?_map, List.getElem?_map]
  simp only [Bool.false_eq_true, if_false, Nat.add_zero]
  rcases Nat.lt_or_ge k (edits history) with lt | ge
  · rw [List.getElem?_range lt]
    by_cases same : n = k
    · subst same
      simp [pending]
    · have other : next.editor? ≠ some k := by
        rw [on]
        simpa using same
      simp [same, recordedBy_concat_of_ne k history next other]
  · simp [ge]

theorem Follows.call (h : Follows initial history s) (made : n < edits history)
    (on : next.editor? = some n) (call : next.applied? = none) :
    Follows initial (history ++ [next]) (s.step next).2 := by
  rw [s.step_of_call on call]
  refine ⟨h.current, ?_, h.editors_update on ?_⟩
  · rw [applyAll_concat_of_none initial call]
    exact h.stores
  · rw [recordedBy_concat_self n history next made on, call]
    rfl

theorem Follows.apply (h : Follows initial history s)
    (texts : ∀ step ∈ history, step.isPlain = true) (made : n < edits history)
    (applied : next.applied? = some n) : Follows initial (history ++ [next]) (s.step next).2 := by
  have on := Step.editor?_of_applied? applied
  have keys := recordedBy_keys (fun step m => Step.isText_of_isPlain (texts step m)) n
  obtain ⟨clean, -⟩ := Batch.run_of_isKey (fun o ho => Value.isKey_of_isText (keys o ho))
    (applyAll (appliedBatches history) initial)
  have course := apply_of_quiet (recordedBy n history) (s := s.store 0) (by rw [h.store])
  rw [h.store, clean] at course
  obtain ⟨result, same⟩ := s.step_of_applied? applied
  rw [same, applyEditor_snd (h.editor made)]
  dsimp only
  rw [h.store, course]
  refine ⟨h.current, ?_, ?_⟩
  · rw [applyAll_concat initial applied]
    unfold updatePending setStore
    rw [h.stores]
    rfl
  · show (s.updatePending n fun _ => {}).editors = _
    refine h.editors_update on ?_
    rw [recordedBy_concat_self n history next made on, applied]
    rfl

theorem Follows.edit (h : Follows initial history s) :
    Follows initial (history ++ [.edit]) (s.step .edit).2 := by
  refine ⟨h.current, ?_, ?_⟩
  · rw [applyAll_concat_of_none initial rfl]
    exact h.stores
  · have fresh : recordedBy (edits history) (history ++ [.edit]) = {} := by
      rw [recordedBy_concat_of_ne (edits history) history .edit nofun,
        recordedBy_of_le _ _ (Nat.le_refl _)]
    have one_more : edits (history ++ [.edit]) = edits history + 1 := edits_concat history .edit
    show s.editors ++ [{ store := s.current }] = _
    rw [h.editors, h.current, one_more, List.range_succ, List.map_append]
    congr 1
    · refine List.map_congr_left fun n _ => ?_
      rw [recordedBy_concat_of_ne n history .edit nofun]
    · rw [List.map_singleton, fresh]

theorem Follows.step (h : Follows initial history s)
    (texts : ∀ step ∈ history, step.isPlain = true) (plain : next.isPlain = true) :
    Follows initial (history ++ [next]) (s.step next).2 := by
  cases on : next.editor? with
  | some n =>
      rcases Nat.lt_or_ge n (edits history) with made | not_made
      · rcases Step.applied?_of_editor? on with call | applied
        · exact h.call made on call
        · exact h.apply texts made applied
      · rw [step_of_missing on (h.missing not_made)]
        refine h.idle (by cases next <;> first | rfl | cases on) fun k lt => ?_
        rw [on]
        intro same
        have := Option.some.inj same
        omega
  | none =>
      cases next with
      | edit => exact h.edit
      | read | contains | getAll =>
          rw [s.step_of_isIdle rfl]
          exact h.idle rfl fun k _ mine => by cases mine
      | put | remove | clear | apply | commit => cases on
      | _ => cases plain

theorem follows_run (initial : Contents) {steps : List Step}
    (plain : ∀ step ∈ steps, step.isPlain = true) :
    Follows initial steps ((start initial).run steps).2 := by
  induction steps using List.reverseRecOn with
  | nil => exact follows_start initial
  | append_singleton steps step ih =>
      have before : ∀ step ∈ steps, step.isPlain = true := fun t ht => plain t (by simp [ht])
      rw [run_concat]
      exact (ih before).step before (plain step (by simp))

end follows

/-! ### Exchanging steps -/

section exchange
variable {first second : Step} {m n : Nat}

/-- What an editor has recorded does not matter to a step on another one. -/
theorem step_comm (s : Session) (on : first.editor? = some m) (on' : second.editor? = some n)
    (ne : m ≠ n) (call : first.applied? = none) :
    ((s.step first).2.step second).2 = ((s.step second).2.step first).2 := by
  rw [s.step_of_call on call, (s.step second).2.step_of_call on call]
  rcases Step.applied?_of_editor? on' with call' | applied
  · rw [step_of_call _ on' call', step_of_call _ on' call']
    exact s.updatePending_comm ne _ _
  · have unchanged := s.updatePending_getElem?_of_ne ne (·.follow first)
    obtain ⟨result, same⟩ := s.step_of_applied? applied
    obtain ⟨result', same'⟩ := (s.updatePending m (·.follow first)).step_of_applied? applied
    cases here : s.editors[n]? with
    | none =>
        rw [step_of_missing on' here, step_of_missing on' (unchanged.trans here)]
    | some e =>
        let course := (s.store e.store).apply e.pending
        rw [same, same', applyEditor_snd here, applyEditor_snd (unchanged.trans here)]
        exact (s.setStore e.store course.store).updatePending_comm ne (·.follow first)
          fun b => if course.fault.isSome then b else {}

theorem run_exchange (s : Session) (before after : List Step) (on : first.editor? = some m)
    (on' : second.editor? = some n) (ne : m ≠ n)
    (call : first.applied? = none ∨ second.applied? = none) :
    (s.run (before ++ first :: second :: after)).2 =
      (s.run (before ++ second :: first :: after)).2 := by
  rw [run_append, run_append]
  dsimp only
  rw [run_cons, run_cons, run_cons, run_cons]
  rcases call with call | call
  · rw [step_comm _ on on' ne call]
  · rw [step_comm _ on' on (Ne.symm ne) call]

end exchange

/-- **Editors are isolated.**  After any steps on the editors of a store without listeners, in any
order, the store holds what the applied batches have made of its first contents, one after the
other, and each editor has pending what was recorded on it since it was last applied.  Without a
step that only reads or fails to put something, or with two neighbouring steps on different editors
exchanged, of which not both make changes, all ends in the same session. -/
theorem run_isolated (initial : Contents) (steps : List Step)
    (plain : ∀ step ∈ steps, step.isPlain = true) :
    let s := ((start initial).run steps).2
    (s.store 0).contents = applyAll (appliedBatches steps) initial ∧
    s.editors = ((List.range (edits steps)).map fun n =>
      { store := 0, pending := recordedBy n steps }) ∧
    (∀ before idle after, steps = before ++ idle :: after → idle.isIdle = true →
      ((start initial).run (before ++ after)).2 = s) ∧
    ∀ before first second after m n, steps = before ++ first :: second :: after →
      first.editor? = some m → second.editor? = some n → m ≠ n →
      first.applied? = none ∨ second.applied? = none →
      ((start initial).run (before ++ second :: first :: after)).2 = s := by
  have follows := follows_run initial plain
  refine ⟨?_, follows.editors, ?_, ?_⟩
  · rw [follows.store]
  · rintro before idle after rfl nothing
    rw [run_append, run_append]
    dsimp only
    rw [run_cons, step_of_isIdle _ nothing]
  · rintro before first second after m n rfl on on' ne call
    exact ((start initial).run_exchange before after on on' ne call).symm

/-- Two editors that take turns; one of them is used again, the other cannot put a list. -/
def takingTurns : List Step :=
  [.edit, .edit, .put 0 .int (.text "a") (.int 1), .put 1 .int (.text "a") (.int 2),
    .put 1 .int (.text "b") (.list []), .remove 0 (.text "b"), .apply 0,
    .put 0 .int (.text "c") (.int 3), .commit 1]

theorem run_isolated_takingTurns :
    (∀ step ∈ takingTurns, step.isPlain = true) ∧
      let s := ((start [(.text "b", .int 7)]).run takingTurns).2
      (s.store 0).contents = [(.text "a", .int 2)] ∧
      s.editors[0]? =
        some { store := 0, pending := { operations := [.put (.text "c") (.int 3)] } } ∧
      ((start [(.text "b", .int 7)]).run (takingTurns.eraseIdx 4)).2 = s := by
  have plain : ∀ step ∈ takingTurns, step.isPlain = true := by decide
  obtain ⟨contents, editors, idle, -⟩ := run_isolated [(.text "b", .int 7)] takingTurns plain
  have batches : appliedBatches takingTurns =
      [{ operations := [.put (.text "a") (.int 1), .remove (.text "b")] },
        { operations := [.put (.text "a") (.int 2)] }] := rfl
  rw [batches] at contents
  refine ⟨plain, contents.trans (by cbv), ?_, idle (takingTurns.take 4) _ _ rfl rfl⟩
  rw [editors]
  rfl

end Session

end Preferences.Store

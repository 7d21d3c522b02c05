import Mathlib.Data.List.DropRight
import Preferences.Proofs.Store.Steps

/-! # What a history says

The steps made so far say by themselves what each editor must have pending and which batches must
have been applied.  `recordedBy` collects the steps on one editor since it was made and since it was
last applied, and `appliedBatches` what each apply or commit has found recorded.  Both are told
without any state; `recordedBy_concat_self`, `recordedBy_concat_of_ne` and `appliedBatches_concat`
say how one more step changes them. -/

namespace Preferences.Store

def Step.isEdit : Step → Bool
  | .edit => true
  | _ => false

namespace Session

/-- The number of editors that have been made. -/
def edits (history : List Step) : Nat := history.countP Step.isEdit

/-- The steps after the one that made the editor of this number. -/
def afterEdit : (n : Nat) → List Step → List Step
  | _, [] => []
  | 0, step :: rest => if step.isEdit then rest else afterEdit 0 rest
  | n + 1, step :: rest => afterEdit (if step.isEdit then n else n + 1) rest

/-- The steps on an editor since it was last applied. -/
def sinceApplied (n : Nat) (history : List Step) : List Step :=
  ((afterEdit n history).filter (·.editor? == some n)).rtakeWhile (·.applied?.isNone)

/-- What an editor has recorded since it was last applied. -/
def recordedBy (n : Nat) (history : List Step) : Batch := Batch.ofSteps (sinceApplied n history)

/-- For each apply and commit, in their order, what its editor had recorded by then. -/
def appliedBatches (history : List Step) : List Batch :=
  (List.range history.length).filterMap fun place =>
    (history[place]?.bind Step.applied?).map fun n => recordedBy n (history.take place)

/-! ### One more step -/

section concat
variable (n : Nat) (history : List Step) (step : Step)

theorem edits_concat :
    edits (history ++ [step]) = edits history + if step.isEdit then 1 else 0 := by
  unfold edits
  rw [List.countP_append, List.countP_singleton]

theorem afterEdit_concat : afterEdit n (history ++ [step]) =
    if n < edits history then afterEdit n history ++ [step] else [] := by
  induction history generalizing n with
  | nil => cases n <;> simp [afterEdit, edits]
  | cons first rest ih =>
      unfold edits at ih ⊢
      rw [List.countP_cons, List.cons_append]
      cases n with
      | zero =>
          unfold afterEdit
          by_cases edit : first.isEdit = true
          · simp [edit]
          · simp [edit, ih]
      | succ n =>
          unfold afterEdit
          rw [ih]
          by_cases edit : first.isEdit = true
          · simp [edit]
          · simp [edit]

theorem afterEdit_of_le (h : edits history ≤ n) : afterEdit n history = [] := by
  induction history using List.reverseRecOn with
  | nil => cases n <;> rfl
  | append_singleton history step =>
      rw [edits_concat] at h
      rw [afterEdit_concat, if_neg (by omega)]

theorem recordedBy_of_le (h : edits history ≤ n) : recordedBy n history = {} := by
  unfold recordedBy sinceApplied
  rw [afterEdit_of_le n history h]
  rfl

/-- One more step on an editor that there is records something more, or begins anew after an
apply. -/
theorem recordedBy_concat_self (made : n < edits history) (on : step.editor? = some n) :
    recordedBy n (history ++ [step]) =
      if step.applied?.isSome then {} else (recordedBy n history).follow step := by
  have mine : [step].filter (·.editor? == some n) = [step] := by simp [on]
  unfold recordedBy sinceApplied
  rw [afterEdit_concat, if_pos made, List.filter_append, mine, List.rtakeWhile_concat]
  cases step.applied? with
  | none => exact Batch.ofSteps_concat _ _
  | some m => rfl

/-- A step on another editor, or on none, leaves as it is what an editor has recorded. -/
theorem recordedBy_concat_of_ne (other : step.editor? ≠ some n) :
    recordedBy n (history ++ [step]) = recordedBy n history := by
  rcases Nat.lt_or_ge n (edits history) with made | not_made
  · have theirs : [step].filter (·.editor? == some n) = [] := by simp [other]
    unfold recordedBy sinceApplied
    rw [afterEdit_concat, if_pos made, List.filter_append, theirs, List.append_nil]
  · have nothing : recordedBy n (history ++ [step]) = Batch.ofSteps [] := by
      unfold recordedBy sinceApplied
      rw [afterEdit_concat, if_neg (by omega)]
      rfl
    rw [nothing, recordedBy_of_le n history not_made]
    rfl

theorem appliedBatches_concat : appliedBatches (history ++ [step]) =
    appliedBatches history ++ (step.applied?.map fun n => recordedBy n history).toList := by
  unfold appliedBatches
  rw [List.length_append, List.length_singleton, List.range_succ, List.filterMap_append]
  congr 1
  · refine List.filterMap_congr fun place member => ?_
    have lt := List.mem_range.mp member
    rw [List.getElem?_append_left lt, List.take_append_of_le_length (Nat.le_of_lt lt)]
  · cases applied : step.applied? <;> simp [applied]

end concat

theorem mem_of_mem_afterEdit {n : Nat} {history : List Step} {step : Step}
    (h : step ∈ afterEdit n history) : step ∈ history := by
  induction history generalizing n with
  | nil => cases n <;> exact absurd h List.not_mem_nil
  | cons first rest ih =>
      cases n with
      | zero =>
          unfold afterEdit at h
          split_ifs at h
          · exact List.mem_cons_of_mem _ h
          · exact List.mem_cons_of_mem _ (ih h)
      | succ n => exact List.mem_cons_of_mem _ (ih h)

theorem recordedBy_keys {history : List Step} {p : Value → Prop}
    (keys : ∀ step ∈ history, ∀ key, step.key? = some key → p key) (n : Nat) :
    ∀ o ∈ (recordedBy n history).operations, p o.key := by
  refine Batch.ofSteps_keys fun step member => keys step ?_
  have own : step ∈ (afterEdit n history).filter (·.editor? == some n) :=
    (List.rtakeWhile_suffix _ _).subset member
  exact mem_of_mem_afterEdit (List.mem_filter.mp own).1

end Session

end Preferences.Store

import Mathlib.Data.List.Induction
import Mathlib.Tactic.ByContra
import Mathlib.Tactic.SplitIfs
import Preferences.Store.Batch

/-! # How a batch runs

Where every operation has a key that can be one, a batch runs to its end and leaves
its `Batch.outcome` (`run_of_isKey`).  In general an operation may be blocked:
its key cannot be one, and it would have to be looked for (`Operation.Blocked`).  A batch stops at
its first blocked operation, if there is one, with the contents that the operations before it have
made (`run_of_stopsAt`), and otherwise runs to its end (`run_of_not_stopsAt`). -/

namespace Preferences.Store

namespace Operation

/-- What the operation writes under its key; nothing if it removes the key. -/
def value? : Operation → Option Value
  | put _ value => some value
  | remove _ => none

/-- The contents with the operation done, whatever its key is. -/
def act (c : Contents) : Operation → Contents
  | put key value => c.put key value
  | remove key => c.remove key

/-- The operation cannot be done on the contents: its key can be no key, and it is looked for,
which a removal from empty contents does not do. -/
def Blocked (c : Contents) (operation : Operation) : Prop :=
  operation.key.isKey = false ∧ (operation.value? = none → c ≠ [])

theorem not_blocked_of_isKey {operation : Operation} (h : operation.key.isKey = true)
    (c : Contents) : ¬ operation.Blocked c := by
  rintro ⟨bad, -⟩
  rw [h] at bad
  exact absurd bad (by decide)

theorem perform_of_blocked {operation : Operation} {c : Contents} (h : operation.Blocked c) :
    operation.perform c = .error .notKey := by
  obtain ⟨bad, used⟩ := h
  cases operation with
  | put key value =>
      have bad : key.isKey = false := bad
      simp [perform, bad]
  | remove key =>
      have bad : key.isKey = false := bad
      have used : c ≠ [] := used rfl
      simp [perform, bad, used]

theorem perform_of_not_blocked {operation : Operation} {c : Contents}
    (h : ¬ operation.Blocked c) : operation.perform c = .ok (operation.act c) := by
  cases operation with
  | put key value =>
      have good : key.isKey = true := by
        by_contra bad
        have writes : (put key value).value? ≠ none := Option.some_ne_none value
        exact h ⟨Bool.eq_false_iff.mpr bad, fun removes => absurd removes writes⟩
      simp [perform, act, good]
  | remove key =>
      have good : c = [] ∨ key.isKey = true := by
        by_contra bad
        rw [not_or] at bad
        exact h ⟨Bool.eq_false_iff.mpr bad.2, fun _ => bad.1⟩
      rcases good with rfl | good
      · simp [perform, act]
      · simp [perform, act, good]

end Operation

namespace Batch

def outcome (b : Batch) (c : Contents) : Contents :=
  b.operations.foldl Operation.act (b.start c).contents

/-- The contents that the clearing, if there is one, and then the first operations make. -/
def contentsAt (b : Batch) (c : Contents) (n : Nat) : Contents :=
  outcome { b with operations := b.operations.take n } c

/-- The operation at a place is the first that is blocked by what the others have made. -/
structure StopsAt (b : Batch) (c : Contents) (n : Nat) : Prop where
  blocked : ∃ operation, b.operations[n]? = some operation ∧ operation.Blocked (b.contentsAt c n)
  first : ∀ k < n, ∀ operation, b.operations[k]? = some operation →
    ¬ operation.Blocked (b.contentsAt c k)

theorem start_misuse (b : Batch) (c : Contents) : (b.start c).misuse = none := by
  unfold start
  split_ifs <;> rfl

/-- What holds of batches without operations, and of a batch with one operation more, holds of all
batches. -/
@[elab_as_elim]
theorem record_induction {motive : Batch → Prop} (start : ∀ clears, motive { clears })
    (record : ∀ b operation, motive b → motive (record b operation)) (b : Batch) : motive b := by
  obtain ⟨clears, operations⟩ := b
  induction operations using List.reverseRecOn with
  | nil => exact start clears
  | append_singleton operations operation ih => exact record ⟨clears, operations⟩ operation ih

theorem outcome_record (b : Batch) (operation : Operation) (c : Contents) :
    (b.record operation).outcome c = operation.act (b.outcome c) := by
  unfold outcome record
  rw [List.foldl_append]
  rfl

theorem contentsAt_zero {b : Batch} (h : b.clears = false) (c : Contents) :
    b.contentsAt c 0 = c := by
  unfold contentsAt outcome start
  simp [h]

theorem contentsAt_length (b : Batch) (c : Contents) :
    b.contentsAt c b.operations.length = b.outcome c := by
  unfold contentsAt
  rw [List.take_length]

theorem contentsAt_succ (b : Batch) (c : Contents) (n : Nat) :
    b.contentsAt c (n + 1) = b.operations[n]?.toList.foldl Operation.act (b.contentsAt c n) := by
  unfold contentsAt outcome
  rw [List.take_add_one, List.foldl_append]
  rfl

theorem foldl_perform_of_misuse {change : Change} {misuse : Misuse}
    (h : change.misuse = some misuse) (operations : List Operation) :
    operations.foldl Change.perform change = change := by
  induction operations with
  | nil => rfl
  | cons operation rest ih =>
      have e : change.perform operation = change := by simp [Change.perform, h]
      rw [List.foldl_cons, e, ih]

/-- As far as no operation is blocked, a run does what the operations say. -/
theorem foldl_perform_take (b : Batch) (c : Contents) (n : Nat)
    (free : ∀ k < n, ∀ operation, b.operations[k]? = some operation →
      ¬ operation.Blocked (b.contentsAt c k)) :
    ((b.operations.take n).foldl Change.perform (b.start c)).misuse = none ∧
      ((b.operations.take n).foldl Change.perform (b.start c)).contents = b.contentsAt c n := by
  induction n with
  | zero => exact ⟨b.start_misuse c, rfl⟩
  | succ n ih =>
      obtain ⟨clean, contents⟩ := ih fun k hk => free k (Nat.lt_succ_of_lt hk)
      rw [List.take_add_one, List.foldl_append, contentsAt_succ]
      cases h : b.operations[n]? with
      | none => exact ⟨clean, contents⟩
      | some operation =>
          have done := Operation.perform_of_not_blocked (free n n.lt_succ_self operation h)
          rw [Option.toList_some, List.foldl_cons, List.foldl_nil, Change.perform, clean]
          dsimp only
          rw [contents, done]
          exact ⟨rfl, rfl⟩

/-- At its first blocked operation a run stops, with what was done until then. -/
theorem run_of_stopsAt {b : Batch} {c : Contents} {n : Nat} (h : b.StopsAt c n) :
    (b.run c).misuse = some .notKey ∧ (b.run c).contents = b.contentsAt c n := by
  obtain ⟨⟨operation, at_n, blocked⟩, first⟩ := h
  obtain ⟨clean, contents⟩ := foldl_perform_take b c n first
  have split : b.operations = b.operations.take n ++ operation :: b.operations.drop (n + 1) := by
    obtain ⟨lt, e⟩ := List.getElem?_eq_some_iff.mp at_n
    rw [← e, List.getElem_cons_drop, List.take_append_drop]
  have stop := Operation.perform_of_blocked blocked
  rw [← contents] at stop
  have e : b.run c = { (b.operations.take n).foldl Change.perform (b.start c) with
      misuse := some .notKey } := by
    unfold run
    rw [split, List.foldl_append, List.foldl_cons, ← split]
    have step : ((b.operations.take n).foldl Change.perform (b.start c)).perform operation =
        { (b.operations.take n).foldl Change.perform (b.start c) with
          misuse := some .notKey } := by
      rw [Change.perform, clean]
      dsimp only
      rw [stop]
    rw [step]
    exact foldl_perform_of_misuse rfl _
  rw [e]
  exact ⟨rfl, contents⟩

theorem not_blocked_of_not_stopsAt {b : Batch} {c : Contents} (h : ∀ n, ¬ b.StopsAt c n) :
    ∀ n, ∀ operation, b.operations[n]? = some operation →
      ¬ Operation.Blocked (b.contentsAt c n) operation := by
  intro n
  induction n using Nat.strongRecOn with
  | ind n ih => exact fun operation at_n blocked => h n ⟨⟨operation, at_n, blocked⟩, ih⟩

/-- A run that stops nowhere does all that the operations say. -/
theorem run_of_not_stopsAt {b : Batch} {c : Contents} (h : ∀ n, ¬ b.StopsAt c n) :
    (b.run c).misuse = none ∧ (b.run c).contents = b.outcome c := by
  have whole := foldl_perform_take b c b.operations.length
    fun k _ => not_blocked_of_not_stopsAt h k
  rw [List.take_length, contentsAt_length] at whole
  exact whole

theorem not_stopsAt_of_isKey {b : Batch} (keys : ∀ o ∈ b.operations, o.key.isKey = true)
    (c : Contents) (n : Nat) : ¬ b.StopsAt c n := by
  rintro ⟨⟨operation, at_n, blocked⟩, -⟩
  have good := keys operation (List.mem_of_getElem? at_n)
  exact Operation.not_blocked_of_isKey good _ blocked

theorem run_of_isKey {b : Batch} (keys : ∀ o ∈ b.operations, o.key.isKey = true) (c : Contents) :
    (b.run c).misuse = none ∧ (b.run c).contents = b.outcome c :=
  run_of_not_stopsAt (not_stopsAt_of_isKey keys c)

end Batch

end Preferences.Store

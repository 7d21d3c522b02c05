import Preferences.Proofs.Store.BatchRun
import Preferences.Proofs.Store.TextKeyed

/-! # What a batch leaves

For texts as keys, `Batch.Leaves` says what a store holds after a batch without running it: under
every key what the last operation on it wrote, or else what was there before unless all was
cleared; first the old keys that were neither cleared nor ever removed, in their old order, and then
the others in the order of the places at which they entered (`Batch.EntersAt`), which is for each
the first put after its last removal.  `leaves_outcome` proves it of every batch: the three parts,
that the keys stay texts (`textKeyed_outcome`), what is found (`get?_outcome`) and where the keys
stand (`arranges_outcome`), are each an induction from the last operation backwards.  Nothing else
has all three (`Leaves.unique`). -/

namespace Preferences.Store

namespace Operation

def removes (key : Value) : Operation → Bool
  | put .. => false
  | remove other => decide (other = key)

section act
variable {c : Contents} {operation : Operation} {key : Value}

theorem textKeyed_act (keyed : c.TextKeyed) (text : operation.key.isText = true) :
    (operation.act c).TextKeyed := by
  cases operation with
  | put other value => exact keyed.put value text
  | remove other => exact keyed.remove text

/-- Under its own key stands what the operation writes; all else stays. -/
theorem get?_act (keyed : c.TextKeyed) (text : operation.key.isText = true)
    (hk : key.isText = true) :
    (operation.act c).get? key =
      if operation.key = key then operation.value? else c.get? key := by
  cases operation with
  | put other value =>
      exact (Table.get?_put value keyed text hk).trans (if_congr eq_comm rfl rfl)
  | remove other =>
      exact (Table.get?_remove keyed text hk).trans (if_congr eq_comm rfl rfl)

end act

end Operation

namespace Batch

/-- What the last operation on a key writes under it, if there is one: nothing for a removal. -/
def last? (b : Batch) (key : Value) : Option (Option Value) :=
  (b.operations.reverse.find? fun operation => operation.key = key).map Operation.value?

/-- The old keys that are neither cleared nor ever removed. -/
def kept (b : Batch) (before : Contents) : List Value :=
  if b.clears then [] else before.keys.filter fun key => !b.operations.any (·.removes key)

/-- At this place of the batch the key is put for the first time after its last removal, or for the
first time at all if it is never removed. -/
structure EntersAt (b : Batch) (key : Value) (place : Nat) : Prop where
  puts : ∃ value, b.operations[place]? = some (.put key value)
  stays : ∀ later > place, b.operations[later]? ≠ some (.remove key)
  first : ∀ earlier < place, ∀ value, b.operations[earlier]? = some (.put key value) →
    ∃ between > earlier, b.operations[between]? = some (.remove key)

/-- The keys are the kept ones and then those that have entered, in the order of their places. -/
def Arranges (b : Batch) (before : Contents) (keys : List Value) : Prop :=
  ∃ added : List (Value × Nat), keys = b.kept before ++ added.map Prod.fst ∧
    (∀ entry ∈ added, b.EntersAt entry.1 entry.2) ∧ added.Pairwise fun e f => e.2 < f.2

/-- What a store with texts as keys holds after the batch. -/
structure Leaves (b : Batch) (before after : Contents) : Prop where
  keyed : after.TextKeyed
  value : ∀ key : String,
    after.get? key = (b.last? key).getD (if b.clears then none else before.get? key)
  order : b.Arranges before after.keys

/-! ### One more operation -/

section record
variable (b : Batch) (operation : Operation)

theorem record_operations : (b.record operation).operations = b.operations ++ [operation] := rfl

theorem forall_mem_record {p : Operation → Prop} :
    (∀ o ∈ (b.record operation).operations, p o) ↔ (∀ o ∈ b.operations, p o) ∧ p operation := by
  rw [record_operations, List.forall_mem_append, List.forall_mem_singleton]

theorem last?_record (key : Value) :
    (b.record operation).last? key =
      if operation.key = key then some operation.value? else b.last? key := by
  unfold last?
  rw [record_operations, List.reverse_concat, List.find?_cons]
  by_cases h : operation.key = key <;> simp [h]

theorem kept_record_put (before : Contents) (key value : Value) :
    (b.record (.put key value)).kept before = b.kept before := by
  unfold kept
  simp [record, Operation.removes]

theorem kept_record_remove (before : Contents) (key : Value) :
    (b.record (.remove key)).kept before = (b.kept before).filter (· != key) := by
  unfold kept
  by_cases h : b.clears
  · simp [record, h]
  · simp only [record, h, Bool.false_eq_true, if_false, List.filter_filter]
    congr 1
    funext other
    simp [Operation.removes, bne, eq_comm, Bool.and_comm, Bool.beq_eq_decide_eq]

theorem getElem?_record (n : Nat) :
    (b.record operation).operations[n]? =
      if n = b.operations.length then some operation else b.operations[n]? := by
  rw [record_operations]
  rcases Nat.lt_trichotomy n b.operations.length with lt | rfl | gt
  · rw [List.getElem?_append_left lt, if_neg (Nat.ne_of_lt lt)]
  · simp
  · rw [if_neg (Nat.ne_of_gt gt), List.getElem?_eq_none (by simp; omega),
      List.getElem?_eq_none (Nat.le_of_lt gt)]

theorem getElem?_record_length :
    (b.record operation).operations[b.operations.length]? = some operation := by
  rw [getElem?_record, if_pos rfl]

theorem getElem?_record_of_some {n : Nat} {old : Operation} (h : b.operations[n]? = some old) :
    (b.record operation).operations[n]? = some old := by
  obtain ⟨lt, -⟩ := List.getElem?_eq_some_iff.mp h
  rw [getElem?_record, if_neg (Nat.ne_of_lt lt), h]

end record

/-! ### Entering -/

section entering
variable {b : Batch} {operation : Operation} {key : Value} {place : Nat}

/-- Every put on the key has a removal of it behind it. -/
def Withdrawn (b : Batch) (key : Value) : Prop :=
  ∀ (earlier : Nat) (value : Value), b.operations[earlier]? = some (.put key value) →
    ∃ between > earlier, b.operations[between]? = some (.remove key)

theorem EntersAt.lt_length (h : b.EntersAt key place) : place < b.operations.length := by
  obtain ⟨value, at_place⟩ := h.puts
  exact (List.getElem?_eq_some_iff.mp at_place).1

theorem EntersAt.unique {other : Nat} (h : b.EntersAt key place) (h' : b.EntersAt key other) :
    place = other := by
  have not_before : ∀ {p q : Nat}, b.EntersAt key p → b.EntersAt key q → ¬ p < q := by
    intro p q hp hq lt
    obtain ⟨value, at_p⟩ := hp.puts
    obtain ⟨between, after, at_between⟩ := hq.first p lt value at_p
    exact hp.stays between after at_between
  have := not_before h h'
  have := not_before h' h
  omega

/-- A place of entry remains one until the key is removed. -/
theorem EntersAt.record (h : b.EntersAt key place) (other : operation ≠ .remove key) :
    (b.record operation).EntersAt key place := by
  have lt := h.lt_length
  refine ⟨?_, ?_, ?_⟩
  · obtain ⟨value, at_place⟩ := h.puts
    exact ⟨value, b.getElem?_record_of_some operation at_place⟩
  · intro later after
    rw [getElem?_record]
    split_ifs
    · simpa using other
    · exact h.stays later after
  · intro earlier before value at_earlier
    rw [getElem?_record, if_neg (by omega)] at at_earlier
    obtain ⟨between, after, at_between⟩ := h.first earlier before value at_earlier
    exact ⟨between, after, b.getElem?_record_of_some operation at_between⟩

/-- A key that is put while it is withdrawn enters there. -/
theorem Withdrawn.entersAt (h : b.Withdrawn key) (value : Value) :
    (b.record (.put key value)).EntersAt key b.operations.length := by
  refine ⟨⟨value, b.getElem?_record_length _⟩, ?_, ?_⟩
  · intro later after
    rw [getElem?_record, if_neg (by omega), List.getElem?_eq_none (by omega)]
    nofun
  · intro earlier before value' at_earlier
    rw [getElem?_record, if_neg (by omega)] at at_earlier
    obtain ⟨between, after, at_between⟩ := h earlier value' at_earlier
    exact ⟨between, after, b.getElem?_record_of_some _ at_between⟩

theorem Withdrawn.record (h : b.Withdrawn key) (other : operation.key ≠ key) :
    (b.record operation).Withdrawn key := by
  intro earlier value at_earlier
  rw [getElem?_record] at at_earlier
  split_ifs at at_earlier
  · rw [Option.some.inj at_earlier] at other
    exact absurd rfl other
  · obtain ⟨between, after, at_between⟩ := h earlier value at_earlier
    exact ⟨between, after, b.getElem?_record_of_some operation at_between⟩

/-- A key that is removed is withdrawn, whatever was done with it before. -/
theorem withdrawn_record_remove (b : Batch) (key : Value) :
    (b.record (.remove key)).Withdrawn key := by
  intro earlier value at_earlier
  refine ⟨b.operations.length, ?_, b.getElem?_record_length _⟩
  rw [getElem?_record] at at_earlier
  split_ifs at at_earlier
  · cases at_earlier
  · exact (List.getElem?_eq_some_iff.mp at_earlier).1

end entering

/-! ### The order of the keys -/

section order
variable {b : Batch} {before : Contents} {keys : List Value} {key : Value}

theorem Arranges.put (h : b.Arranges before keys) (value : Value) :
    (b.record (.put key value)).Arranges before keys := by
  obtain ⟨added, e, enter, ordered⟩ := h
  refine ⟨added, ?_, fun entry he => (enter entry he).record nofun, ordered⟩
  rw [kept_record_put, e]

theorem Arranges.put_new (h : b.Arranges before keys) (new : b.Withdrawn key) (value : Value) :
    (b.record (.put key value)).Arranges before (keys ++ [key]) := by
  obtain ⟨added, e, enter, ordered⟩ := h
  refine ⟨added ++ [(key, b.operations.length)], ?_, ?_, ?_⟩
  · rw [kept_record_put, e, List.map_append, List.append_assoc]
    rfl
  · intro entry he
    rcases List.mem_append.mp he with he | he
    · exact (enter entry he).record nofun
    · rw [List.mem_singleton.mp he]
      exact new.entersAt value
  · refine List.pairwise_append.mpr ⟨ordered, List.pairwise_singleton _ _, ?_⟩
    intro entry he last hl
    rw [List.mem_singleton.mp hl]
    exact (enter entry he).lt_length

theorem Arranges.remove (h : b.Arranges before keys) (key : Value) :
    (b.record (.remove key)).Arranges before (keys.filter (· != key)) := by
  obtain ⟨added, e, enter, ordered⟩ := h
  refine ⟨added.filter (·.1 != key), ?_, ?_, ordered.filter _⟩
  · rw [kept_record_remove, e, List.filter_append, List.filter_map]
    rfl
  · intro entry he
    obtain ⟨he, ne⟩ := List.mem_filter.mp he
    refine (enter entry he).record ?_
    intro same
    simp [Operation.remove.inj same] at ne

end order

/-! ### The outcome -/

section outcome
variable {before : Contents}

theorem textKeyed_start (keyed : before.TextKeyed) (b : Batch) :
    (b.start before).contents.TextKeyed := by
  unfold start
  split_ifs
  · exact Table.textKeyed_nil
  · exact keyed

theorem textKeyed_outcome (keyed : before.TextKeyed) (b : Batch)
    (texts : ∀ o ∈ b.operations, o.key.isText = true) : (b.outcome before).TextKeyed := by
  induction b using record_induction with
  | start clears => exact textKeyed_start keyed _
  | record b operation ih =>
      obtain ⟨others, text⟩ := (b.forall_mem_record operation).mp texts
      rw [outcome_record]
      exact Operation.textKeyed_act (ih others) text

/-- Under a key stands what the last operation on it has written, or what the run began with. -/
theorem get?_outcome (keyed : before.TextKeyed) (b : Batch)
    (texts : ∀ o ∈ b.operations, o.key.isText = true) {key : Value} (hk : key.isText = true) :
    (b.outcome before).get? key =
      (b.last? key).getD ((b.start before).contents.get? key) := by
  induction b using record_induction with
  | start clears => rfl
  | record b operation ih =>
      obtain ⟨others, text⟩ := (b.forall_mem_record operation).mp texts
      have act := Operation.get?_act (textKeyed_outcome keyed b others) text hk
      have same_start : (b.record operation).start before = b.start before := rfl
      rw [outcome_record, act, last?_record, same_start, ih others]
      by_cases own : operation.key = key
      · rw [if_pos own, if_pos own, Option.getD_some]
      · rw [if_neg own, if_neg own]

/-- The keys are arranged as they should be, and every other key is withdrawn. -/
theorem arranges_outcome (keyed : before.TextKeyed) (b : Batch)
    (texts : ∀ o ∈ b.operations, o.key.isText = true) :
    b.Arranges before (b.outcome before).keys ∧
      ∀ key ∉ (b.outcome before).keys, b.Withdrawn key := by
  induction b using record_induction with
  | start clears =>
      refine ⟨⟨[], ?_, by simp, List.Pairwise.nil⟩, ?_⟩
      · cases clears <;> simp [outcome, start, kept, Table.keys]
      · intro key _ earlier value at_earlier
        simp at at_earlier
  | record b operation ih =>
      obtain ⟨others, text⟩ := (b.forall_mem_record operation).mp texts
      obtain ⟨arranged, withdrawn⟩ := ih others
      have keyed' := textKeyed_outcome keyed b others
      rw [outcome_record]
      cases operation with
      | put key value =>
          have e : (Table.put key value (b.outcome before)).keys = _ :=
            Table.keys_put value keyed' text
          rw [Operation.act, e]
          -- A key that is there keeps its place; another one is withdrawn, so it enters here.
          by_cases h : key ∈ (b.outcome before).keys
          · rw [if_pos h]
            refine ⟨arranged.put value, ?_⟩
            intro other absent
            exact (withdrawn other absent).record fun e => absent (e ▸ h)
          · rw [if_neg h]
            refine ⟨arranged.put_new (withdrawn key h) value, ?_⟩
            intro other absent
            rw [List.mem_append, not_or, List.mem_singleton] at absent
            exact (withdrawn other absent.1).record (Ne.symm absent.2)
      | remove key =>
          have e : (Table.remove (b.outcome before) key).keys = _ := Table.keys_remove keyed' text
          rw [Operation.act, e, keyed'.nodup.erase_eq_filter]
          refine ⟨arranged.remove key, ?_⟩
          intro other absent
          by_cases h : other = key
          · rw [h]
            exact b.withdrawn_record_remove key
          · refine (withdrawn other ?_).record (Ne.symm h)
            intro present
            exact absent (List.mem_filter.mpr ⟨present, by simpa using h⟩)

theorem leaves_outcome (keyed : before.TextKeyed) (b : Batch)
    (texts : ∀ o ∈ b.operations, o.key.isText = true) : b.Leaves before (b.outcome before) := by
  refine ⟨textKeyed_outcome keyed b texts, ?_, (arranges_outcome keyed b texts).1⟩
  intro key
  rw [get?_outcome keyed b texts rfl]
  unfold start
  by_cases h : b.clears <;> simp [h, Table.get?]

/-- The entries of one arrangement are among those of another with the same keys. -/
theorem mem_added {b : Batch} {kept : List Value} {added added' : List (Value × Nat)}
    (nodup : (kept ++ added.map Prod.fst).Nodup)
    (same : ∀ key, key ∈ kept ++ added.map Prod.fst ↔ key ∈ kept ++ added'.map Prod.fst)
    (enter : ∀ entry ∈ added, b.EntersAt entry.1 entry.2)
    (enter' : ∀ entry ∈ added', b.EntersAt entry.1 entry.2) :
    ∀ entry ∈ added, entry ∈ added' := by
  intro entry he
  have not_kept : entry.1 ∉ kept := fun hk =>
    (List.nodup_append.mp nodup).2.2 _ hk _ (List.mem_map_of_mem he) rfl
  have there := (same entry.1).mp (List.mem_append_right _ (List.mem_map_of_mem he))
  obtain ⟨entry', he', e⟩ := List.mem_map.mp ((List.mem_append.mp there).resolve_left not_kept)
  have place : entry'.2 = entry.2 := (enter' entry' he').unique (e ▸ enter entry he)
  rw [← Prod.ext e place]
  exact he'

theorem Leaves.unique {b : Batch} {after after' : Contents} (h : b.Leaves before after)
    (h' : b.Leaves before after') : after = after' := by
  have values : ∀ key : Value, key.isText = true → after.get? key = after'.get? key := by
    intro key hk
    cases key with
    | text key => rw [h.value key, h'.value key]
    | _ => cases hk
  have same : ∀ key, key ∈ after.keys ↔ key ∈ after'.keys := by
    intro key
    by_cases hk : key.isText = true
    · rw [← not_iff_not, ← Table.get?_eq_none_iff h.keyed hk, values key hk,
        Table.get?_eq_none_iff h'.keyed hk]
    · exact ⟨fun m => absurd (h.keyed.texts key m) hk, fun m => absurd (h'.keyed.texts key m) hk⟩
  refine h.keyed.ext h'.keyed ?_ values
  obtain ⟨added, e, enter, ordered⟩ := h.order
  obtain ⟨added', e', enter', ordered'⟩ := h'.order
  have nodup := h.keyed.nodup
  have nodup' := h'.keyed.nodup
  rw [e] at nodup
  rw [e'] at nodup'
  simp only [e, e'] at same
  have members : ∀ entry, entry ∈ added ↔ entry ∈ added' := fun entry =>
    ⟨mem_added nodup same enter enter' entry,
      mem_added nodup' (fun key => (same key).symm) enter' enter entry⟩
  have strict : ∀ {l : List (Value × Nat)}, l.Pairwise (fun e f => e.2 < f.2) → l.Nodup := by
    intro l ordered
    show l.Pairwise (· ≠ ·)
    refine ordered.imp ?_
    rintro e f lt rfl
    exact Nat.lt_irrefl _ lt
  have perm := (List.perm_ext_iff_of_nodup (strict ordered) (strict ordered')).mpr members
  have equal : added = added' := perm.eq_of_pairwise
    (fun _ _ _ _ lt gt => absurd (Nat.lt_trans lt gt) (Nat.lt_irrefl _)) ordered ordered'
  rw [e, e', equal]

end outcome

end Batch

end Preferences.Store

import Preferences.Value.Same

/-! # Every value is the same as itself

What is looked up under the very value that it was entered with is found: `Value.same` is reflexive
on all values, numbers that are none included (`Value.same_self`). -/

namespace Preferences

theorem Binary64.same_self (x : Binary64) : x.same x = true := by simp [Binary64.same]

theorem DateTime.same_self (t : DateTime) : t.same t = true := by simp [DateTime.same]

namespace Value

mutual

theorem same_self : ∀ v : Value, v.same v = true
  | .null => by simp [same, sameAtom]
  | .bool b => by simp [same, sameAtom, asInt?]
  | .int n => by simp [same, sameAtom, asInt?]
  | .float x => by simp [same, sameAtom, x.same_self]
  | .text s => by simp [same, sameAtom]
  | .list items => by rw [same, sameItems_self items]
  | .table entries => by simp [same, entriesWithin_of_subset entries entries (fun _ h => h)]
  | .set items => by simp [same, itemsWithin_of_subset items items (fun _ h => h)]
  | .frozenset items => by simp [same, itemsWithin_of_subset items items (fun _ h => h)]
  | .date d => by simp [same, sameAtom]
  | .time t => by simp [same, sameAtom]
  | .datetime t => by simp [same, sameAtom, t.same_self]

theorem sameItems_self : ∀ items : List Value, sameItems items items = true
  | [] => by rw [sameItems]
  | v :: rest => by rw [sameItems, same_self v, sameItems_self rest, Bool.and_self]

theorem itemsWithin_of_subset :
    ∀ items others : List Value, (∀ v ∈ items, v ∈ others) → itemsWithin items others = true
  | [], _, _ => by rw [itemsWithin]
  | v :: rest, others, h => by
      obtain ⟨first, later⟩ := List.forall_mem_cons.mp h
      rw [itemsWithin, itemsWithin_of_subset rest others later, Bool.and_true, List.any_eq_true]
      exact ⟨v, first, same_self v⟩

theorem entriesWithin_of_subset : ∀ entries others : List (Value × Value),
    (∀ entry ∈ entries, entry ∈ others) → entriesWithin entries others = true
  | [], _, _ => by rw [entriesWithin]
  | (key, v) :: rest, others, h => by
      obtain ⟨first, later⟩ := List.forall_mem_cons.mp h
      rw [entriesWithin, entriesWithin_of_subset rest others later, Bool.and_true,
        List.any_eq_true]
      exact ⟨(key, v), first, by simp [same_self key, same_self v]⟩

end

end Value

end Preferences

import Preferences.Proofs.Store.Moves

/-! # Stores that there are

In a session that is reached by steps from one store, the current store, the store of every editor
and the stores that the context has given out are among the stores that there are (`Linked`,
`linked_run`). -/

namespace Preferences.Store.Session

/-- Every number of a store is the number of one that there is. -/
structure Linked (s : Session) : Prop where
  current : s.current < s.stores.length
  editors : ∀ e ∈ s.editors, e.store < s.stores.length
  given : ∀ context, s.context = some context →
    ∀ entry ∈ context.given, entry.2 < s.stores.length

variable {s : Session}

theorem linked_start (initial : Contents) : (start initial).Linked where
  current := Nat.zero_lt_one
  editors := by simp [start]
  given := by simp [start]

theorem Linked.store_lt (h : s.Linked) {n : Nat} {e : Editor} (here : s.editors[n]? = some e) :
    e.store < s.stores.length := h.editors e (List.mem_of_getElem? here)

theorem Linked.updatePending (h : s.Linked) (n : Nat) (f : Batch → Batch) :
    (s.updatePending n f).Linked := by
  refine ⟨h.current, ?_, h.given⟩
  intro e member
  obtain ⟨k, at_k⟩ := List.mem_iff_getElem?.mp member
  have was := at_k
  unfold Session.updatePending at was
  dsimp only at was
  rw [List.getElem?_modify] at was
  obtain ⟨old, at_old, rfl⟩ := Option.map_eq_some_iff.mp was
  have bound := h.store_lt at_old
  split_ifs <;> exact bound

theorem Linked.setStore (h : s.Linked) (n : Nat) (store : Store) : (s.setStore n store).Linked := by
  obtain ⟨current, editors, given⟩ := h
  rw [← s.setStore_stores_length n store] at current editors given
  exact ⟨current, editors, given⟩

theorem Linked.useStore (h : s.Linked) {context : Context} (here : s.context = some context)
    (name : Value) : (s.useStore context name).2.Linked := by
  unfold Session.useStore
  split_ifs
  · exact h
  · cases found : context.find? name with
    | some n =>
        obtain ⟨entry, at_name, rfl⟩ := Option.map_eq_some_iff.mp found
        exact ⟨h.given context here entry (List.mem_of_find?_eq_some at_name), h.editors, h.given⟩
    | none =>
        have more : (s.stores ++ [({ contents := context.initial } : Store)]).length =
            s.stores.length + 1 := List.length_append
        refine ⟨?_, ?_, ?_⟩
        · rw [more]
          exact Nat.lt_succ_self _
        · intro e member
          rw [more]
          exact Nat.lt_succ_of_lt (h.editors e member)
        · intro context' same entry member
          rw [more]
          obtain rfl := Option.some.inj same
          rcases List.mem_append.mp member with old | new
          · exact Nat.lt_succ_of_lt (h.given context here entry old)
          · rw [List.mem_singleton.mp new]
            exact Nat.lt_succ_self _

theorem Linked.step (h : s.Linked) (step : Step) : (s.step step).2.Linked := by
  have moves := s.step_moves step
  generalize (s.step step).2 = after at moves ⊢
  cases moves with
  | stays => exact h
  | records => exact h.updatePending _ _
  | applies => exact (h.setStore _ _).updatePending _ _
  | edits =>
      refine ⟨h.current, fun e member => ?_, h.given⟩
      rcases List.mem_append.mp member with old | new
      · exact h.editors e old
      · rw [List.mem_singleton.mp new]
        exact h.current
  | opens =>
      refine ⟨h.current, h.editors, ?_⟩
      rintro context same entry member
      obtain rfl := Option.some.inj same
      exact absurd member List.not_mem_nil
  | uses here => exact h.useStore here _
  | listensAgain | unlistens => exact h.setStore _ _
  | @listens l =>
      have set := h.setStore s.current ((s.store s.current).register l)
      exact ⟨set.current, set.editors, set.given⟩

theorem Linked.run (h : s.Linked) (steps : List Step) : (s.run steps).2.Linked :=
  run_keeps (P := Linked) (fun _ step _ linked => linked.step step) h

theorem linked_run (initial : Contents) (steps : List Step) :
    ((start initial).run steps).2.Linked := (linked_start initial).run steps

end Preferences.Store.Session

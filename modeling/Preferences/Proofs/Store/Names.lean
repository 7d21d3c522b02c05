import Preferences.Proofs.Store.Calls
import Preferences.Proofs.Store.Linked
import Preferences.Proofs.Store.Moves

/-! # Listeners of one name

A listener is registered and unregistered by its name, so a list of registrations makes sense only
if those of one name are registrations of one listener (`OfOneName`).  A session sees to it that
they are: what it registers under a name that has come before is the listener of that time
(`Introduced`, `introduced_run`). -/

namespace Preferences.Store

/-- Listeners of one name are the same listener. -/
def OfOneName (listeners : List Listener) : Prop :=
  ∀ l ∈ listeners, ∀ other ∈ listeners, l.name = other.name → l = other

theorem OfOneName.mono {old new : List Listener} (h : OfOneName old) (sub : new ⊆ old) :
    OfOneName new := fun l hl other ho same => h l (sub hl) other (sub ho) same

theorem ofOneName_nil : OfOneName [] := fun _ h => absurd h List.not_mem_nil

theorem OfOneName.concat {listeners : List Listener} (h : OfOneName listeners) {l : Listener}
    (new : ∀ other ∈ listeners, other.name ≠ l.name) : OfOneName (listeners ++ [l]) := by
  intro first hf second hs same
  rcases List.mem_append.mp hf with hf | hf <;> rcases List.mem_append.mp hs with hs | hs
  · exact h first hf second hs same
  · rw [List.mem_singleton.mp hs] at same
    exact absurd same (new first hf)
  · rw [List.mem_singleton.mp hf] at same
    exact absurd same.symm (new second hs)
  · rw [List.mem_singleton.mp hf, List.mem_singleton.mp hs]

theorem unregister_subset {name : String} {s t : Store} (off : s.unregister name = .ok t) :
    t.listeners ⊆ s.listeners := by
  rw [unregister_eq] at off
  split at off
  · cases off
    exact List.eraseP_sublist.subset
  · cases off

namespace Session

/-- Every registered listener is known to the session, which knows one of each name. -/
structure Introduced (s : Session) : Prop where
  ofOneName : OfOneName s.listeners
  registered : ∀ store ∈ s.stores, store.listeners ⊆ s.listeners

variable {s : Session}

theorem introduced_start (initial : Contents) : (start initial).Introduced where
  ofOneName := ofOneName_nil
  registered := by simp [start]

theorem store_mem_or_eq (s : Session) (n : Nat) : s.store n ∈ s.stores ∨ s.store n = {} := by
  unfold Session.store
  cases at_n : s.stores[n]? with
  | none => exact Or.inr rfl
  | some store => exact Or.inl (List.mem_of_getElem? at_n)

theorem Introduced.store_subset (h : s.Introduced) (n : Nat) :
    (s.store n).listeners ⊆ s.listeners := by
  rcases s.store_mem_or_eq n with member | nothing
  · exact h.registered _ member
  · rw [nothing]
    exact List.nil_subset _

/-- The registrations of a store are of listeners that their names tell apart. -/
theorem Introduced.store_ofOneName (h : s.Introduced) (n : Nat) :
    OfOneName (s.store n).listeners := h.ofOneName.mono (h.store_subset n)

theorem Introduced.setStore (h : s.Introduced) {n : Nat} {store : Store}
    (old : store.listeners ⊆ s.listeners) : (s.setStore n store).Introduced := by
  refine ⟨h.ofOneName, fun other member => ?_⟩
  rcases List.mem_or_eq_of_mem_set member with member | rfl
  · exact h.registered other member
  · exact old

theorem Introduced.useStore (h : s.Introduced) (context : Context) (name : Value) :
    (s.useStore context name).2.Introduced := by
  unfold Session.useStore
  split_ifs
  · exact h
  · cases context.find? name with
    | some n => exact ⟨h.ofOneName, h.registered⟩
    | none =>
        refine ⟨h.ofOneName, fun store member => ?_⟩
        rcases List.mem_append.mp member with old | new
        · exact h.registered store old
        · rw [List.mem_singleton.mp new]
          exact List.nil_subset _

theorem Introduced.step (h : s.Introduced) (step : Step) : (s.step step).2.Introduced := by
  have moves := s.step_moves step
  generalize (s.step step).2 = after at moves ⊢
  cases moves with
  | stays => exact h
  | records | edits | opens => exact ⟨h.ofOneName, h.registered⟩
  | @applies n e applied here =>
      have remain := (passes_apply e.pending (s.store e.store)).sublist
      have set := h.setStore (n := e.store) (List.Subset.trans remain.subset (h.store_subset _))
      exact ⟨set.ofOneName, set.registered⟩
  | uses => exact h.useStore _ _
  | @listensAgain l known listen found =>
      have old := List.mem_of_find?_eq_some found
      exact h.setStore (List.append_subset.mpr ⟨h.store_subset _, by simpa using old⟩)
  | @listens l listen new =>
      have others : ∀ other ∈ s.listeners, other.name ≠ l.name := by
        simpa using List.find?_eq_none.mp new
      have grown : s.listeners ⊆ s.listeners ++ [l] := List.subset_append_left _ _
      refine ⟨h.ofOneName.concat others, fun store member => ?_⟩
      rcases List.mem_or_eq_of_mem_set member with member | rfl
      · exact List.Subset.trans (h.registered store member) grown
      · exact List.append_subset.mpr
          ⟨List.Subset.trans (h.store_subset _) grown, List.subset_append_right _ _⟩
  | unlistens unlisten off =>
      exact h.setStore (List.Subset.trans (unregister_subset off) (h.store_subset _))

theorem Introduced.run (h : s.Introduced) (steps : List Step) : (s.run steps).2.Introduced :=
  run_keeps (P := Introduced) (fun _ step _ introduced => introduced.step step) h

theorem introduced_run (initial : Contents) (steps : List Step) :
    ((start initial).run steps).2.Introduced := (introduced_start initial).run steps

end Session

end Preferences.Store

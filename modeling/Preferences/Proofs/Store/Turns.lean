import Preferences.Proofs.Store.Calls

/-! # Applies without answers

As long as no listener answers a call with a change of its own, an apply takes the announced keys
one after the other, and nothing happens within a call but that its listener leaves.  So every call
finds the contents of the finished batch, and the listener that is called is registered
(`calls_of_quiet`): at each moment of a turn every listener has at least as many registrations as
there are calls that it still waits for. -/

namespace Preferences.Store

/-- How many registrations of this name are on the list. -/
def registrations (name : String) (listeners : List Listener) : Nat :=
  listeners.countP (·.name == name)

section registrations
variable {name : String} {s : Store}

theorem registrations_cons (name : String) (l : Listener) (rest : List Listener) :
    registrations name (l :: rest) = registrations name rest + if l.name = name then 1 else 0 := by
  simp [registrations, List.countP_cons]

theorem any_name_eq (name : String) (listeners : List Listener) :
    listeners.any (·.name == name) = decide (0 < registrations name listeners) := by
  rw [Bool.eq_iff_iff, decide_eq_true_eq, registrations, List.countP_pos_iff, List.any_eq_true]

theorem registrations_pos_of_mem {l : Listener} {listeners : List Listener} (h : l ∈ listeners) :
    0 < registrations l.name listeners :=
  List.countP_pos_iff.mpr ⟨l, h, beq_self_eq_true _⟩

theorem Call.registered_iff (made : Call) :
    made.registered = true ↔ 0 < registrations made.listener.name made.store.listeners := by
  rw [registered, any_name_eq, decide_eq_true_eq]

theorem unregister_of_pos (h : 0 < registrations name s.listeners) :
    ∃ t, s.unregister name = .ok t ∧ t.contents = s.contents ∧
      ∀ other, registrations other t.listeners + (if name = other then 1 else 0) =
        registrations other s.listeners := by
  refine ⟨{ s with listeners := s.listeners.eraseP (·.name == name) }, ?_, rfl, ?_⟩
  · rw [unregister_eq, any_name_eq, if_pos (by simpa using h)]
  · intro other
    obtain ⟨first, member, own⟩ := List.countP_pos_iff.mp h
    obtain ⟨l, before, after, -, own, split, rest⟩ :=
      List.exists_of_eraseP (p := (·.name == name)) member own
    rw [beq_iff_eq] at own
    rw [rest, split]
    unfold registrations
    by_cases same : name = other <;> simp [own, same, Nat.add_assoc]

theorem unregister_of_eq_zero (h : registrations name s.listeners = 0) :
    s.unregister name = .error .notRegistered := by
  rw [unregister_eq, any_name_eq, if_neg (by simp [h])]

end registrations

section quiet
variable {change : Batch → Store → Course} {within : Batch → Store → List Call} {key : Value}

theorem call_of_quiet (change : Batch → Store → Course) {l : Listener} {s : Store}
    (quiet : ∀ made ∈ callsOfCall within key l s, made.writes = false)
    (registered : 0 < registrations l.name s.listeners) :
    (∀ made ∈ callsOfCall within key l s, made = ⟨l, key, s⟩) ∧
    (call change key l s).store.contents = s.contents ∧
    ∀ name, registrations name s.listeners ≤
      registrations name (call change key l s).store.listeners +
        if l.name = name then 1 else 0 := by
  have kept : ∀ name, registrations name s.listeners ≤
      registrations name s.listeners + if l.name = name then 1 else 0 :=
    fun name => Nat.le_add_right _ _
  unfold callsOfCall at quiet ⊢
  by_cases hk : key.isKey = true
  · rw [if_pos hk] at quiet ⊢
    rw [call_of_isKey change hk]
    have silent := quiet _ List.mem_cons_self
    unfold callsOfReaction react
    cases reaction : l.reaction with
    | log => exact ⟨by simp, rfl, kept⟩
    | raise trigger =>
        dsimp only
        split <;> exact ⟨by simp, rfl, kept⟩
    | put trigger target number =>
        have other : key.same trigger = false := by simpa [Call.writes, reaction] using silent
        simp only [other, Bool.false_eq_true, if_false]
        exact ⟨by simp, rfl, kept⟩
    | once =>
        obtain ⟨t, off, contents, fewer⟩ := unregister_of_pos registered
        simp only [off]
        exact ⟨by simp, contents, fun name => Nat.le_of_eq (fewer name).symm⟩
  · rw [if_neg hk, call, if_neg hk]
    exact ⟨by simp, rfl, kept⟩

/-- A turn without answers, from the listeners that are still to be called. -/
theorem turn_of_quiet (waiting : List Listener) (s : Store)
    (quiet : ∀ made ∈ callsForEach (call change key) (callsOfCall within key) waiting s,
      made.writes = false)
    (enough : ∀ name, registrations name waiting ≤ registrations name s.listeners) :
    (∀ made ∈ callsForEach (call change key) (callsOfCall within key) waiting s,
      made.store.contents = s.contents ∧ made.registered = true) ∧
    (Course.forEach (call change key) waiting s).store.contents = s.contents := by
  induction waiting generalizing s with
  | nil => exact ⟨by simp [callsForEach], rfl⟩
  | cons l waiting ih =>
      have registered : 0 < registrations l.name s.listeners := by
        have first := enough l.name
        rw [registrations_cons, if_pos rfl] at first
        omega
      unfold callsForEach at quiet ⊢
      rw [List.forall_mem_append] at quiet ⊢
      obtain ⟨only, contents, fewer⟩ := call_of_quiet change quiet.1 registered
      have first : ∀ made ∈ callsOfCall within key l s,
          made.store.contents = s.contents ∧ made.registered = true := by
        intro made member
        rw [only made member]
        exact ⟨rfl, (Call.registered_iff _).mpr registered⟩
      rw [Course.forEach_cons]
      cases ended : (call change key l s).fault with
      | some fault =>
          refine ⟨⟨first, by simp⟩, ?_⟩
          simpa [Course.andThen, ended] using contents
      | none =>
          have enough' : ∀ name, registrations name waiting ≤
              registrations name (call change key l s).store.listeners := by
            intro name
            have before := enough name
            have after := fewer name
            rw [registrations_cons] at before
            omega
          have later := ih (call change key l s).store (by simpa [ended] using quiet.2) enough'
          rw [contents] at later
          refine ⟨⟨first, by simpa using later.1⟩, ?_⟩
          simpa [Course.andThen, ended] using later.2

theorem turns_of_quiet (keys : List Value) (s : Store)
    (quiet : ∀ made ∈ callsForEach (tell change) (callsOfTurn change within) keys s,
      made.writes = false) :
    ∀ made ∈ callsForEach (tell change) (callsOfTurn change within) keys s,
      made.store.contents = s.contents ∧ made.registered = true := by
  induction keys generalizing s with
  | nil => simp [callsForEach]
  | cons key keys ih =>
      unfold callsForEach at quiet ⊢
      rw [List.forall_mem_append] at quiet ⊢
      obtain ⟨first, contents⟩ := turn_of_quiet s.listeners s quiet.1 fun _ => Nat.le_refl _
      refine ⟨first, ?_⟩
      cases ended : (tell change key s).fault with
      | some fault => simp
      | none =>
          have later := ih (tell change key s).store (by simpa [ended] using quiet.2)
          have contents : (tell change key s).store.contents = s.contents := contents
          rw [contents] at later
          simpa using later

end quiet

/-- Where no call of an apply is answered, every call finds the finished batch, and the listener is
registered. -/
theorem calls_of_quiet {b : Batch} {s : Store} (quiet : ∀ made ∈ s.calls b, made.writes = false) :
    ∀ made ∈ s.calls b,
      made.store.contents = (b.run s.contents).contents ∧ made.registered = true := by
  unfold calls at quiet ⊢
  cases stops : (b.run s.contents).misuse with
  | some misuse =>
      rw [callsWithin_of_misuse _ stops]
      simp
  | none =>
      rw [callsWithin_of_clean _ stops] at quiet ⊢
      exact turns_of_quiet _ _ quiet

end Preferences.Store

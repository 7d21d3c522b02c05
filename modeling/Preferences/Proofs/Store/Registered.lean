import Preferences.Proofs.Store.Names
import Preferences.Proofs.Store.Turns

/-! # Whether a listener that is called is registered

The listeners that are called for a key are those that were registered when its turn came.  One that
leaves when it is called may have been called, and have left, within the answer of another listener
of the same turn; then it is called once more though it is not registered any longer, and its asking
to leave ends the apply with a fault.  No other call is made of a listener that is not registered
(`Passes.missed_last`, `earlier_of_missed`).  So the calls of a listener that leaves are counted by
its registrations, but for one that ends in the fault (`Passes.count_name`). -/

namespace Preferences.Store

section passes
variable {known : List Listener} {s : Store} {made : List Call} {c : Course} {name : String}

theorem unregister_ok {t : Store} (off : s.unregister name = .ok t) :
    0 < registrations name s.listeners ∧ t.listeners = s.listeners.eraseP (·.name == name) ∧
      ∀ other, registrations other t.listeners + (if name = other then 1 else 0) =
        registrations other s.listeners := by
  rcases Nat.eq_zero_or_pos (registrations name s.listeners) with none | some
  · rw [unregister_of_eq_zero none] at off
    cases off
  · obtain ⟨u, off', -, fewer⟩ := unregister_of_pos some
    rw [off] at off'
    obtain rfl := Except.ok.inj off'
    refine ⟨some, ?_, fewer⟩
    rw [unregister_eq, any_name_eq, if_pos (by simpa using some)] at off
    rw [← Except.ok.inj off]

theorem not_registered_of_gone {l : Listener}
    (gone : s.unregister l.name = .error .notRegistered) (key : Value) :
    (Call.mk l key s).registered = false := by
  rw [← Bool.not_eq_true, Call.registered_iff]
  intro some
  obtain ⟨t, off, -⟩ := unregister_of_pos some
  rw [gone] at off
  cases off

theorem mem_of_unregister {t : Store} {l other : Listener} (ofOneName : OfOneName known)
    (hl : l ∈ known) (leaves : l.leaves = true) (off : s.unregister l.name = .ok t)
    (ho : other ∈ known) (stays : other.leaves = false) (member : other ∈ s.listeners) :
    other ∈ t.listeners := by
  rw [(unregister_ok off).2.1]
  refine (List.mem_eraseP_of_neg ?_).mpr member
  intro same
  rw [ofOneName other ho l hl (beq_iff_eq.mp same), leaves] at stays
  cases stays

/-- A listener that is called though it is not registered leaves when it is called.  The call is the
last one, and the fault comes from it. -/
theorem Passes.missed_last (h : Passes known s made c) (ofOneName : OfOneName known)
    (stay : ∀ l ∈ known, l.leaves = false → l ∈ s.listeners) {before after : List Call}
    {call : Call} (split : made = before ++ call :: after) (missed : call.registered = false) :
    call.listener.leaves = true ∧ after = [] ∧ c.fault = some .notRegistered ∧
      c.store = call.store := by
  induction h generalizing before with
  | done | failed => simp at split
  | written _ ih => exact ih stay split
  | stayed key member stays _ ih =>
      rcases List.cons_eq_append_iff.mp split with ⟨rfl, e⟩ | ⟨before', rfl, e⟩
      · rw [(List.cons.inj e).1, ← Bool.not_eq_true, Call.registered_iff] at missed
        exact absurd (registrations_pos_of_mem (stay _ member stays)) missed
      · exact ih stay e
  | left key member leaves off _ ih =>
      rcases List.cons_eq_append_iff.mp split with ⟨rfl, e⟩ | ⟨before', rfl, e⟩
      · rw [(List.cons.inj e).1, ← Bool.not_eq_true, Call.registered_iff] at missed
        exact absurd (unregister_ok off).1 missed
      · exact ih (fun l hl stays =>
          mem_of_unregister ofOneName member leaves off hl stays (stay l hl stays)) e
  | missed s key member leaves gone =>
      rcases List.cons_eq_append_iff.mp split with ⟨rfl, e⟩ | ⟨before', rfl, e⟩
      · obtain ⟨rfl, rfl⟩ := List.cons.inj e
        exact ⟨leaves, rfl, rfl, rfl⟩
      · simp at e

/-- Each call of a registered listener that leaves takes one of its registrations off. -/
theorem Passes.count_registered (h : Passes known s made c)
    (leave : ∀ l ∈ known, l.name = name → l.leaves = true) :
    made.countP (fun call => call.listener.name == name && call.registered) +
      registrations name c.store.listeners = registrations name s.listeners := by
  induction h with
  | done | failed => exact Nat.zero_add _
  | written _ ih => exact ih
  | @stayed s l key made c member stays _ ih =>
      have other : l.name ≠ name := fun own => by
        rw [leave l member own] at stays
        cases stays
      simpa [List.countP_cons, other, Course.called] using ih
  | @left s t l key made c member leaves off _ ih =>
      obtain ⟨pos, -, fewer⟩ := unregister_ok off
      have registered : (Call.mk l key s).registered = true := (Call.registered_iff _).mpr pos
      have less := fewer name
      rw [List.countP_cons]
      simp only [registered, Bool.and_true, beq_iff_eq, Course.called]
      omega
  | @missed s l key member leaves gone =>
      simp [not_registered_of_gone gone, Course.called, Course.failed]

/-- The calls of a name, but for the one that ends the course in a fault, each take a registration
off. -/
theorem Passes.count_name (h : Passes known s made c) (ofOneName : OfOneName known)
    (stay : ∀ l ∈ known, l.leaves = false → l ∈ s.listeners)
    (leave : ∀ l ∈ known, l.name = name → l.leaves = true) :
    made.countP (·.listener.name == name) + registrations name c.store.listeners ≤
        registrations name s.listeners ∨
      made.countP (·.listener.name == name) + registrations name c.store.listeners ≤
          registrations name s.listeners + 1 ∧
        c.fault = some .notRegistered ∧ ∃ last, made.getLast? = some last ∧
          last.listener.name = name := by
  have count := h.count_registered leave
  by_cases missed : ∃ call ∈ made, call.listener.name = name ∧ call.registered = false
  · obtain ⟨call, member, own, off⟩ := missed
    obtain ⟨before, after, split⟩ := List.append_of_mem member
    obtain ⟨-, rfl, fault, -⟩ := h.missed_last ofOneName stay split off
    -- Another such call would have to be the last one as well.
    have others : ∀ earlier ∈ before, earlier.registered = true := by
      intro earlier he
      by_contra off'
      obtain ⟨first, second, rfl⟩ := List.append_of_mem he
      have := (h.missed_last ofOneName stay (split.trans (List.append_assoc _ _ _))
        (Bool.eq_false_iff.mpr off')).2.1
      simp at this
    have same : before.countP (fun call => call.listener.name == name && call.registered) =
        before.countP (·.listener.name == name) :=
      List.countP_congr fun earlier he => by simp [others earlier he]
    rw [split, List.countP_append, List.countP_singleton, same] at count
    refine Or.inr ⟨?_, fault, call, by simp [split], own⟩
    rw [split, List.countP_append, List.countP_singleton]
    simp only [own, off, Bool.and_false, Bool.false_eq_true, if_false, beq_self_eq_true,
      if_true] at count ⊢
    omega
  · have same : made.countP (fun call => call.listener.name == name && call.registered) =
        made.countP (·.listener.name == name) := by
      refine List.countP_congr fun call member => ?_
      by_cases own : call.listener.name = name
      · have on : call.registered = true := by
          by_contra off
          exact missed ⟨call, member, own, Bool.eq_false_iff.mpr off⟩
        simp [own, on]
      · simp [own]
    rw [same] at count
    exact Or.inl (Nat.le_of_eq count)

/-- The fault of a listener that is not registered comes from the last call. -/
theorem Passes.last_of_fault (h : Passes known s made c) (fault : c.fault = some .notRegistered) :
    ∃ last, made.getLast? = some last ∧ last.registered = false := by
  have longer : ∀ {first last : Call} {rest : List Call}, rest.getLast? = some last →
      (first :: rest).getLast? = some last := by
    intro first last rest h
    rw [List.getLast?_cons, h]
    rfl
  induction h with
  | done => cases fault
  | failed s other => exact absurd (Option.some.inj fault) other
  | written _ ih => exact ih fault
  | stayed key member stays _ ih =>
      obtain ⟨last, at_end, off⟩ := ih fault
      exact ⟨last, longer at_end, off⟩
  | left key member leaves off _ ih =>
      obtain ⟨last, at_end, off⟩ := ih fault
      exact ⟨last, longer at_end, off⟩
  | missed s key member leaves gone =>
      exact ⟨⟨_, key, s⟩, rfl, not_registered_of_gone gone key⟩

end passes

/-- A listener that is called though it is not registered has been called before in the same apply,
and another listener has answered there. -/
theorem earlier_of_missed {b : Batch} {s : Store} (ofOneName : OfOneName s.listeners)
    {before : List Call} {call : Call} (split : s.calls b = before ++ [call])
    (missed : call.registered = false) :
    (∃ earlier ∈ before, earlier.writes = true) ∧
      ∃ earlier ∈ before, earlier.listener = call.listener ∧ earlier.registered = true := by
  have path := passes_apply b s
  have member : call ∈ s.calls b := by simp [split]
  obtain ⟨leaves, -, -, store⟩ := path.missed_last ofOneName (fun _ h _ => h) split missed
  refine ⟨?_, ?_⟩
  · by_contra silent
    have quiet : ∀ made ∈ s.calls b, made.writes = false := by
      intro made h
      rw [split] at h
      rcases List.mem_append.mp h with h | h
      · exact Bool.eq_false_iff.mpr fun writes => silent ⟨made, h, writes⟩
      · rw [List.mem_singleton.mp h]
        unfold Listener.leaves at leaves
        unfold Call.writes
        split at leaves
        · next once => rw [once]
        · cases leaves
    rw [(calls_of_quiet quiet call member).2] at missed
    cases missed
  · have known := path.listener_mem call member
    have leave : ∀ l ∈ s.listeners, l.name = call.listener.name → l.leaves = true :=
      fun l hl same => ofOneName l hl _ known same ▸ leaves
    have count := path.count_registered leave
    have gone : registrations call.listener.name (s.apply b).store.listeners = 0 := by
      rw [store]
      rw [← Bool.not_eq_true, Call.registered_iff] at missed
      omega
    have some := registrations_pos_of_mem known
    have called : 0 < (s.calls b).countP fun made =>
        made.listener.name == call.listener.name && made.registered := by omega
    obtain ⟨earlier, he, alike⟩ := List.countP_pos_iff.mp called
    rw [Bool.and_eq_true, beq_iff_eq] at alike
    have same := ofOneName _ (path.listener_mem earlier he) _ known alike.1
    rw [split] at he
    rcases List.mem_append.mp he with he | he
    · exact ⟨earlier, he, same, alike.2⟩
    · rw [List.mem_singleton.mp he, missed] at alike
      cases alike.2

end Preferences.Store

import Preferences.Proofs.Store.Steps

/-! # All that a step can make of a session

`Moves` lists what can become of a session in one step, each with what the step asks for and what it
has found there.  `step_moves` says that nothing else can, so what every move keeps is kept by
steps, and what steps keep is kept by a run of them (`run_keeps`). -/

namespace Preferences.Store.Session

/-- What a step can make of a session. -/
inductive Moves (s : Session) (step : Step) : Session → Prop
  | stays (idle : step.applied?.bind (s.editors[·]?) = none) : Moves s step s
  | records {n : Nat} (on : step.editor? = some n) (call : step.applied? = none) :
      Moves s step (s.updatePending n (·.follow step))
  | applies {n : Nat} {e : Editor} (applied : step.applied? = some n)
      (here : s.editors[n]? = some e) : Moves s step
        ((s.setStore e.store ((s.store e.store).apply e.pending).store).updatePending n fun b =>
          if ((s.store e.store).apply e.pending).fault.isSome then b else {})
  | edits (made : step = .edit) :
      Moves s step { s with editors := s.editors ++ [{ store := s.current }] }
  | opens {defaultName : Value} {initial : Contents}
      (opened : step = .openContext defaultName initial) :
      Moves s step { s with context := some { defaultName, initial } }
  | uses {context : Context} {name : Value} (here : s.context = some context)
      (asking : step = .use name ∨ step = .useDefault ∧ name = context.defaultName) :
      Moves s step (s.useStore context name).2
  | listensAgain {l known : Listener} (listen : step = .listen l)
      (found : s.listeners.find? (·.name == l.name) = some known) :
      Moves s step (s.setStore s.current ((s.store s.current).register known))
  | listens {l : Listener} (listen : step = .listen l)
      (new : s.listeners.find? (·.name == l.name) = none) : Moves s step
        { s.setStore s.current ((s.store s.current).register l) with
          listeners := s.listeners ++ [l] }
  | unlistens {name : String} {store : Store} (unlisten : step = .unlisten name)
      (off : (s.store s.current).unregister name = .ok store) :
      Moves s step (s.setStore s.current store)

theorem step_moves (s : Session) (step : Step) : s.Moves step (s.step step).2 := by
  cases on : step.editor? with
  | some n =>
      cases here : s.editors[n]? with
      | none =>
          rw [step_of_missing on here]
          rcases Step.applied?_of_editor? on with call | applied
          · exact .stays (by rw [call, Option.bind_none])
          · exact .stays (by rw [applied, Option.bind_some, here])
      | some e =>
          rcases Step.applied?_of_editor? on with call | applied
          · rw [s.step_of_call on call]
            exact .records on call
          · obtain ⟨result, same⟩ := s.step_of_applied? applied
            rw [same, applyEditor_snd here]
            exact .applies applied here
  | none =>
      cases step with
      | edit => exact .edits rfl
      | openContext defaultName initial => exact .opens rfl
      | use name =>
          simp only [Session.step]
          cases here : s.context with
          | none => exact .stays rfl
          | some context => exact .uses here (Or.inl rfl)
      | useDefault =>
          simp only [Session.step]
          cases here : s.context with
          | none => exact .stays rfl
          | some context => exact .uses here (Or.inr ⟨rfl, rfl⟩)
      | listen l =>
          simp only [Session.step]
          cases found : s.listeners.find? (·.name == l.name) with
          | some known => exact .listensAgain rfl found
          | none => exact .listens rfl found
      | unlisten name =>
          simp only [Session.step]
          cases off : (s.store s.current).unregister name with
          | ok store => exact .unlistens rfl off
          | error fault => exact .stays rfl
      | contains key =>
          simp only [Session.step]
          split_ifs <;> exact .stays rfl
      | read | getAll => exact .stays rfl
      | _ => cases on

theorem run_keeps {P : Session → Prop} {steps : List Step}
    (keeps : ∀ s, ∀ step ∈ steps, P s → P (s.step step).2) {s : Session} (h : P s) :
    P (s.run steps).2 := by
  induction steps generalizing s with
  | nil => exact h
  | cons step rest ih =>
      refine ih (fun t next later => keeps t next (List.mem_cons_of_mem _ later)) ?_
      exact keeps s step List.mem_cons_self h

end Preferences.Store.Session

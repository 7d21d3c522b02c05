import Mathlib.Data.List.Nodup
import Mathlib.Data.List.Pairwise
import Preferences.Proofs.Store.Linked
import Preferences.Proofs.Value.SameKeys
import Preferences.Proofs.Value.SameSelf

/-! # The stores of a context

A context gives out a store for each name that it is asked for.  `step_grows` is all that a step can
make of the context and of the number of stores: it leaves them, it opens a context that has given
out nothing yet, or the context gives out a store that is new.  From it follow the names and numbers
of what a context has given out (`Orderly`), that these numbers come after those of earlier contexts
(`Beyond`), and that they were given by steps that have been made (`remembered_run`).  So two steps
get the same store exactly if they ask the same context for the same name (`gives_eq_iff`), and a
store that is given out is made then or was given before (`gives_new_or_given`). -/

namespace Preferences.Store

namespace Step

def opens : Step → Bool
  | openContext .. => true
  | _ => false

/-- The name of a store that the step mentions. -/
def name? : Step → Option Value
  | use name | openContext name _ => some name
  | _ => none

end Step

namespace Context

/-- What the context has given out are different stores under different names. -/
structure Orderly (context : Context) : Prop where
  default : context.defaultName.isProper = true
  names : ∀ entry ∈ context.given, entry.1.ProperKey
  unlike : context.given.Pairwise fun e f => e.1.same f.1 = false
  numbers : (context.given.map Prod.snd).Nodup

variable {context : Context} {name : Value}

theorem mem_of_find? {n : Nat} (found : context.find? name = some n) :
    ∃ entry ∈ context.given, entry.1.same name = true ∧ entry.2 = n := by
  obtain ⟨entry, at_name, rfl⟩ := Option.map_eq_some_iff.mp found
  have same := List.find?_some at_name
  exact ⟨entry, List.mem_of_find?_eq_some at_name, same, rfl⟩

theorem not_same_of_find? (new : context.find? name = none) :
    ∀ entry ∈ context.given, entry.1.same name = false := by
  simpa [find?] using new

theorem orderly_open {initial : Contents} (default : name.isProper = true) :
    Orderly { defaultName := name, initial } :=
  ⟨default, nofun, List.Pairwise.nil, List.nodup_nil⟩

theorem Orderly.concat (h : context.Orderly) {n : Nat} (proper : name.ProperKey)
    (new : context.find? name = none) (fresh : ∀ entry ∈ context.given, entry.2 < n) :
    Orderly { context with given := context.given ++ [(name, n)] } := by
  refine ⟨h.default, ?_, ?_, ?_⟩
  · intro entry member
    rcases List.mem_append.mp member with old | last
    · exact h.names entry old
    · rw [List.mem_singleton.mp last]
      exact proper
  · refine List.pairwise_append.mpr ⟨h.unlike, List.pairwise_singleton _ _, ?_⟩
    intro entry member last hl
    rw [List.mem_singleton.mp hl]
    exact not_same_of_find? new entry member
  · rw [List.map_append, List.map_singleton]
    refine List.nodup_append.mpr ⟨h.numbers, List.nodup_singleton n, fun m hm last hl => ?_⟩
    obtain ⟨entry, he, rfl⟩ := List.mem_map.mp hm
    rw [List.mem_singleton.mp hl]
    exact Nat.ne_of_lt (fresh entry he)

/-- Among what is given out, the number tells the name. -/
theorem Orderly.snd_eq_iff (h : context.Orderly) {entry other : Value × Nat}
    (he : entry ∈ context.given) (ho : other ∈ context.given) :
    entry.2 = other.2 ↔ entry.1.same other.1 = true := by
  constructor
  · intro same
    rw [List.inj_on_of_nodup_map h.numbers he ho same]
    exact Value.same_self _
  · intro same
    by_contra differ
    have ne : entry ≠ other := fun equal => differ (congrArg Prod.snd equal)
    have symm : Std.Symm fun e f : Value × Nat =>
        e.1.same f.1 = false ∨ f.1.same e.1 = false := ⟨fun _ _ => Or.symm⟩
    have unlike : context.given.Pairwise fun e f =>
        e.1.same f.1 = false ∨ f.1.same e.1 = false := h.unlike.imp Or.inl
    rcases unlike.forall he ho ne with one | other_way
    · rw [same] at one
      cases one
    · rw [Value.same_symm (h.names _ he) (h.names _ ho) same] at other_way
      cases other_way

end Context

namespace Session

/-- The name that the step asks the context for the store of. -/
def asked? (s : Session) : Step → Option Value
  | .use name => s.context.map fun _ => name
  | .useDefault => s.context.map Context.defaultName
  | _ => none

/-- The step asks for the store of a name and gets the store of this number. -/
structure Gives (s : Session) (step : Step) (name : Value) (n : Nat) : Prop where
  asked : s.asked? step = some name
  given : (s.step step).1.result = .ok (.number n)

variable {s : Session} {step : Step} {name : Value} {n : Nat}

/-! ### One step -/

theorem step_of_asked? (asked : s.asked? step = some name) :
    ∃ context, s.context = some context ∧ s.step step = s.useStore context name := by
  cases step with
  | use other =>
      obtain ⟨context, here, rfl⟩ := Option.map_eq_some_iff.mp asked
      exact ⟨context, here, by simp [Session.step, here]⟩
  | useDefault =>
      obtain ⟨context, here, rfl⟩ := Option.map_eq_some_iff.mp asked
      exact ⟨context, here, by simp [Session.step, here]⟩
  | _ => cases asked

theorem opens_of_asked? (asked : s.asked? step = some name) : step.opens = false := by
  cases step with
  | openContext => cases asked
  | _ => rfl

theorem exists_of_opens (h : step.opens = true) :
    ∃ name initial, step = .openContext name initial := by
  cases step with
  | openContext name initial => exact ⟨name, initial, rfl⟩
  | _ => cases h

def making (s : Session) (context : Context) (name : Value) : Session :=
  { s with
    stores := s.stores ++ [{ contents := context.initial }], current := s.stores.length,
    context := some { context with given := context.given ++ [(name, s.stores.length)] } }

theorem useStore_of_some {context : Context} (key : name.isKey = true)
    (found : context.find? name = some n) :
    s.useStore context name = (reply (.number n), { s with current := n }) := by
  simp [useStore, key, found]

theorem useStore_of_none {context : Context} (key : name.isKey = true)
    (new : context.find? name = none) :
    s.useStore context name = (reply (.number s.stores.length), s.making context name) := by
  simp [useStore, key, new, making]

theorem useStore_of_not_key (context : Context) (bad : name.isKey = false) :
    s.useStore context name = (refuse (.misused .notKey), s) := by
  simp [useStore, bad]

theorem Gives.cases (h : s.Gives step name n) :
    ∃ context, s.context = some context ∧ name.isKey = true ∧
      (context.find? name = some n ∧ (s.step step).2 = { s with current := n } ∨
        context.find? name = none ∧ n = s.stores.length ∧
          (s.step step).2 = s.making context name) := by
  obtain ⟨context, here, same⟩ := step_of_asked? h.asked
  have given := h.given
  rw [same] at given ⊢
  cases key : name.isKey with
  | false =>
      rw [useStore_of_not_key context key] at given
      cases given
  | true =>
      refine ⟨context, here, rfl, ?_⟩
      cases found : context.find? name with
      | some m =>
          rw [useStore_of_some key found] at given ⊢
          obtain rfl : m = n := by
            cases given
            rfl
          exact Or.inl ⟨rfl, rfl⟩
      | none =>
          rw [useStore_of_none key found] at given ⊢
          exact Or.inr ⟨rfl, by cases given; rfl, rfl⟩

theorem exists_gives (asked : s.asked? step = some name) (key : name.isKey = true) :
    ∃ n, s.Gives step name n := by
  obtain ⟨context, -, same⟩ := step_of_asked? asked
  cases found : context.find? name with
  | some n => exact ⟨n, asked, by rw [same, useStore_of_some key found]; rfl⟩
  | none => exact ⟨s.stores.length, asked, by rw [same, useStore_of_none key found]; rfl⟩

theorem Gives.current (h : s.Gives step name n) : (s.step step).2.current = n := by
  obtain ⟨context, -, -, ⟨-, after⟩ | ⟨-, rfl, after⟩⟩ := h.cases
  · rw [after]
  · rw [after]
    rfl

/-- What a step can make of the context and of the number of stores. -/
inductive Grows (s : Session) (step : Step) (t : Session) : Prop
  | keeps (quiet : step.opens = false) (context : t.context = s.context)
      (count : t.stores.length = s.stores.length)
  | opens {name : Value} {initial : Contents} (opened : step = .openContext name initial)
      (context : t.context = some { defaultName := name, initial })
      (count : t.stores.length = s.stores.length)
  | makes {context : Context} {name : Value} (here : s.context = some context)
      (gives : s.Gives step name s.stores.length) (key : name.isKey = true)
      (new : context.find? name = none) (after : t = s.making context name)

theorem Grows.asking (asked : s.asked? step = some name) : s.Grows step (s.step step).2 := by
  have quiet := opens_of_asked? asked
  obtain ⟨context, here, same⟩ := step_of_asked? asked
  cases key : name.isKey with
  | false =>
      rw [same, useStore_of_not_key context key]
      exact .keeps quiet rfl rfl
  | true =>
      obtain ⟨n, gives⟩ := exists_gives asked key
      obtain ⟨context, here, key, ⟨found, after⟩ | ⟨new, rfl, after⟩⟩ := gives.cases
      · rw [after]
        exact .keeps quiet rfl rfl
      · exact .makes here gives key new after

/-- A store is made only where one is asked for, and a context only where one is opened. -/
theorem step_grows (s : Session) (step : Step) : s.Grows step (s.step step).2 := by
  cases asked : s.asked? step with
  | some name => exact .asking asked
  | none =>
      cases quiet : step.opens with
      | true =>
          obtain ⟨name, initial, rfl⟩ := exists_of_opens quiet
          exact .opens rfl rfl rfl
      | false =>
          have moves := s.step_moves step
          generalize (s.step step).2 = after at moves ⊢
          cases moves with
          | stays | records | edits => exact .keeps quiet rfl rfl
          | applies | listensAgain | listens | unlistens =>
              exact .keeps quiet rfl (s.setStore_stores_length _ _)
          | opens opened =>
              rw [opened] at quiet
              cases quiet
          | uses here asking =>
              rcases asking with rfl | ⟨rfl, -⟩ <;> simp [asked?, here] at asked

theorem stores_length_of_not_gives (h : ∀ name n, ¬ s.Gives step name n) :
    (s.step step).2.stores.length = s.stores.length := by
  have grows := s.step_grows step
  generalize (s.step step).2 = after at grows ⊢
  cases grows with
  | keeps _ _ count | opens _ _ count => exact count
  | makes _ gives => exact absurd gives (h _ _)

/-! ### What contexts have given out -/

/-- The name that is asked for is mentioned by the step, or is the default of the context. -/
theorem isProper_of_asked? (h : ∀ context ∈ s.context, context.Orderly)
    (proper : ∀ name, step.name? = some name → name.isProper = true)
    (asked : s.asked? step = some name) : name.isProper = true := by
  cases step with
  | use other =>
      obtain ⟨context, here, rfl⟩ := Option.map_eq_some_iff.mp asked
      exact proper other rfl
  | useDefault =>
      obtain ⟨context, here, rfl⟩ := Option.map_eq_some_iff.mp asked
      exact (h context here).default
  | _ => cases asked

theorem orderly_step (h : ∀ context ∈ s.context, context.Orderly) (linked : s.Linked)
    (proper : ∀ name, step.name? = some name → name.isProper = true) :
    ∀ context ∈ (s.step step).2.context, context.Orderly := by
  have grows := s.step_grows step
  generalize (s.step step).2 = after at grows ⊢
  cases grows with
  | keeps _ context => exact context ▸ h
  | opens opened context =>
      subst opened
      rintro _ there
      rw [context] at there
      obtain rfl := Option.some.inj there
      exact Context.orderly_open (proper _ rfl)
  | @makes context name here gives key new after =>
      subst after
      rintro _ there
      obtain rfl := Option.some.inj there
      exact (h context here).concat ⟨key, isProper_of_asked? h proper gives.asked⟩ new
        (linked.given context here)

theorem orderly_run (h : ∀ context ∈ s.context, context.Orderly) (linked : s.Linked)
    {steps : List Step}
    (proper : ∀ step ∈ steps, ∀ name, step.name? = some name → name.isProper = true) :
    ∀ context ∈ (s.run steps).2.context, context.Orderly := by
  have kept : (s.run steps).2.Linked ∧ ∀ context ∈ (s.run steps).2.context, context.Orderly :=
    run_keeps (P := fun t => t.Linked ∧ ∀ context ∈ t.context, context.Orderly)
      (fun _ step member ⟨linked, orderly⟩ =>
        ⟨linked.step step, orderly_step orderly linked (proper step member)⟩) ⟨linked, h⟩
  exact kept.2

/-- All that the context has given out comes after these stores. -/
structure Beyond (s : Session) (base : Nat) : Prop where
  count : base ≤ s.stores.length
  given : ∀ context ∈ s.context, ∀ entry ∈ context.given, base ≤ entry.2

theorem beyond_step {base : Nat} (h : s.Beyond base) (step : Step) :
    (s.step step).2.Beyond base := by
  have grows := s.step_grows step
  generalize (s.step step).2 = after at grows ⊢
  cases grows with
  | keeps _ context count => exact ⟨count ▸ h.count, context ▸ h.given⟩
  | opens _ context count =>
      refine ⟨count ▸ h.count, fun opened there => ?_⟩
      rw [context] at there
      obtain rfl := Option.some.inj there
      nofun
  | @makes context name here gives key new after =>
      subst after
      refine ⟨?_, fun _ there entry member => ?_⟩
      · exact Nat.le_trans h.count (by simp [making])
      · obtain rfl := Option.some.inj there
        rcases List.mem_append.mp member with old | last
        · exact h.given context here entry old
        · rw [List.mem_singleton.mp last]
          exact h.count

theorem beyond_run {base : Nat} (h : s.Beyond base) (steps : List Step) :
    (s.run steps).2.Beyond base :=
  run_keeps (P := (Beyond · base)) (fun _ step _ beyond => beyond_step beyond step) h

/-- A context that is opened gives out what comes after the stores of that time. -/
theorem beyond_open (s : Session) (h : step.opens = true) :
    (s.step step).2.Beyond s.stores.length := by
  obtain ⟨name, initial, rfl⟩ := exists_of_opens h
  refine ⟨Nat.le_refl _, fun context there => ?_⟩
  obtain rfl := Option.some.inj there
  nofun

theorem stores_length_le_step (s : Session) (step : Step) :
    s.stores.length ≤ (s.step step).2.stores.length := by
  have grows := s.step_grows step
  generalize (s.step step).2 = after at grows ⊢
  cases grows with
  | keeps _ _ count | opens _ _ count => exact Nat.le_of_eq count.symm
  | makes _ _ _ _ after =>
      subst after
      simp [making]

theorem stores_length_le_run (s : Session) (steps : List Step) :
    s.stores.length ≤ (s.run steps).2.stores.length :=
  run_keeps (P := fun t => s.stores.length ≤ t.stores.length)
    (fun t step _ le => Nat.le_trans le (t.stores_length_le_step step)) (Nat.le_refl _)

theorem run_context {context : Context} (here : s.context = some context) {steps : List Step}
    (quiet : ∀ step ∈ steps, step.opens = false) :
    ∃ more, (s.run steps).2.context = some { context with given := context.given ++ more } := by
  induction steps generalizing s context with
  | nil => exact ⟨[], by simpa [Session.run] using here⟩
  | cons step rest ih =>
      have later : ∀ next ∈ rest, next.opens = false := fun next hn =>
        quiet next (List.mem_cons_of_mem _ hn)
      have grows := s.step_grows step
      rw [run_cons]
      generalize (s.step step).2 = after at grows ⊢
      cases grows with
      | keeps _ same => exact ih (same.trans here) later
      | opens opened =>
          have open_ := quiet step List.mem_cons_self
          rw [opened] at open_
          cases open_
      | @makes _ name there gives key new after =>
          subst after
          obtain rfl := Option.some.inj (here.symm.trans there)
          obtain ⟨more, final⟩ := ih (s := s.making context name) rfl later
          exact ⟨(name, s.stores.length) :: more, by simpa using final⟩

theorem Gives.mem (h : s.Gives step name n) :
    ∃ context, (s.step step).2.context = some context ∧
      ∃ entry ∈ context.given, entry.1.same name = true ∧ entry.2 = n := by
  obtain ⟨context, here, -, ⟨found, after⟩ | ⟨-, rfl, after⟩⟩ := h.cases
  · exact ⟨context, by rw [after]; exact here, Context.mem_of_find? found⟩
  · refine ⟨_, by rw [after]; rfl, (name, s.stores.length), by simp, Value.same_self _, rfl⟩

theorem Gives.properKey (h : s.Gives step name n) (orderly : ∀ context ∈ s.context, context.Orderly)
    (proper : ∀ name, step.name? = some name → name.isProper = true) : name.ProperKey := by
  obtain ⟨-, -, key, -⟩ := h.cases
  exact ⟨key, isProper_of_asked? orderly proper h.asked⟩

/-- What is given out before another context is opened is none of what that gives out. -/
theorem Gives.lt_of_opens {again opening : Step} {before after : List Step} {other : Value}
    {m : Nat} (linked : s.Linked) (opens : opening.opens = true) (first : s.Gives step name n)
    (later : ((s.step step).2.run (before ++ opening :: after)).2.Gives again other m) : n < m := by
  obtain ⟨context, there, entry, he, -, rfl⟩ := first.mem
  obtain ⟨last, final, entry', he', -, rfl⟩ := later.mem
  let opened := ((s.step step).2.run before).2
  have beyond : ((opened.step opening).2.run (after ++ [again])).2.Beyond opened.stores.length :=
    beyond_run (opened.beyond_open opens) _
  rw [run_append] at final
  rw [run_concat] at beyond
  have low : entry.2 < (s.step step).2.stores.length :=
    (linked.step step).given context there entry he
  have grown : (s.step step).2.stores.length ≤ opened.stores.length :=
    stores_length_le_run _ before
  have high : opened.stores.length ≤ entry'.2 := beyond.given last final entry' he'
  omega

/-- Two steps get the same store exactly if they ask the same context for the same name. -/
theorem gives_eq_iff {again : Step} {between : List Step} {other : Value} {m : Nat}
    (linked : s.Linked) (orderly : ∀ context ∈ s.context, context.Orderly)
    (proper : ∀ next ∈ step :: between ++ [again], ∀ name, next.name? = some name →
      name.isProper = true)
    (first : s.Gives step name n) (later : ((s.step step).2.run between).2.Gives again other m) :
    n = m ↔ (∀ next ∈ between, next.opens = false) ∧ name.same other = true := by
  by_cases quiet : ∀ next ∈ between, next.opens = false
  · have before : ∀ next ∈ step :: between, ∀ name, next.name? = some name →
        name.isProper = true := fun next hn => proper next (List.mem_append_left _ hn)
    have orderly' := orderly_run orderly linked before
    have orderly'' := orderly_step orderly' (linked.run (step :: between)) (proper again (by simp))
    have key := first.properKey orderly (proper step (by simp))
    have key' := later.properKey orderly' (proper again (by simp))
    obtain ⟨context, there, entry, he, same, rfl⟩ := first.mem
    obtain ⟨last, final, entry', he', same', rfl⟩ := later.mem
    have closed : ∀ next ∈ between ++ [again], next.opens = false := fun next hn =>
      (List.mem_append.mp hn).elim (quiet next) fun own =>
        List.mem_singleton.mp own ▸ opens_of_asked? later.asked
    obtain ⟨more, kept⟩ := run_context there closed
    rw [run_concat] at kept
    obtain rfl := Option.some.inj (kept.symm.trans final)
    have old : entry ∈ context.given ++ more := List.mem_append_left _ he
    have given := orderly'' _ final
    rw [given.snd_eq_iff old he', Value.same_congr_left (given.names _ old) key (given.names _ he')
      same, Value.same_congr_right key (given.names _ he') key' same']
    exact ⟨fun h => ⟨quiet, h⟩, And.right⟩
  · push Not at quiet
    obtain ⟨opening, member, opens⟩ := quiet
    obtain ⟨before, after, rfl⟩ := List.append_of_mem member
    have lt := first.lt_of_opens linked (Bool.not_eq_false _ ▸ opens) later
    refine ⟨fun same => absurd same (Nat.ne_of_lt lt), fun h => ?_⟩
    exact absurd (h.1 opening member) opens

/-- What has been given out was given out by a step that has been made. -/
theorem remembered_run (initial : Contents) (steps : List Step) :
    ∀ context ∈ ((start initial).run steps).2.context, ∀ entry ∈ context.given,
      ∃ before asking after, steps = before ++ asking :: after ∧
        ((start initial).run before).2.Gives asking entry.1 entry.2 := by
  induction steps using List.reverseRecOn with
  | nil => nofun
  | append_singleton steps step ih =>
      have earlier : ∀ context ∈ ((start initial).run steps).2.context, ∀ entry ∈ context.given,
          ∃ before asking after, steps ++ [step] = before ++ asking :: after ∧
            ((start initial).run before).2.Gives asking entry.1 entry.2 := by
        intro context here entry member
        obtain ⟨before, asking, after, rfl, gives⟩ := ih context here entry member
        exact ⟨before, asking, after ++ [step], by simp, gives⟩
      have grows := ((start initial).run steps).2.step_grows step
      rw [run_concat]
      generalize (((start initial).run steps).2.step step).2 = t at grows ⊢
      cases grows with
      | keeps _ context => exact context ▸ earlier
      | opens _ context =>
          intro opened there
          rw [context] at there
          obtain rfl := Option.some.inj there
          nofun
      | @makes context name here gives key new after =>
          subst after
          rintro _ there entry member
          obtain rfl := Option.some.inj there
          rcases List.mem_append.mp member with old | last
          · exact earlier context here entry old
          · rw [List.mem_singleton.mp last]
            exact ⟨steps, step, [], rfl, gives⟩

/-- A store that is given out was given out before, or is made then and holds what the context says
it holds at first. -/
theorem gives_new_or_given {initial : Contents} {steps : List Step}
    (h : ((start initial).run steps).2.Gives step name n) :
    let s := ((start initial).run steps).2
    ((s.step step).2.stores = s.stores ∧ ∃ before asking after other,
      steps = before ++ asking :: after ∧ ((start initial).run before).2.Gives asking other n) ∨
    n = s.stores.length ∧ ∃ context, s.context = some context ∧
      (s.step step).2.stores = s.stores ++ [{ contents := context.initial }] := by
  intro s
  obtain ⟨context, here, -, ⟨found, after⟩ | ⟨-, number, after⟩⟩ := h.cases
  · obtain ⟨entry, he, -, rfl⟩ := Context.mem_of_find? found
    obtain ⟨before, asking, rest, split, gives⟩ :=
      remembered_run initial steps context here entry he
    exact Or.inl ⟨(congrArg Session.stores after).trans rfl, before, asking, rest, entry.1, split,
      gives⟩
  · exact Or.inr ⟨number, context, here, congrArg Session.stores after⟩

end Session

end Preferences.Store

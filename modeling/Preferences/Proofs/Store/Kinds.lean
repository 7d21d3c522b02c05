import Preferences.Proofs.Store.Conversion
import Preferences.Proofs.Store.Isolation
import Preferences.Proofs.Store.Provenance

/-! # Kinds of what is stored

Every stored value is of one of the five kinds (`Kind.of?`), and a read of that kind, and of no
other, gives it (`Kind.read_of_get?_eq_some`).  Contents whose values all are of a kind and whose
keys are proper (`Contents.Sound`) stay so in all steps, since what puts store is of their kind
(`Kind.of?_of_convert`), whatever the kind of the value that they are given.  `run_kinds` says what
each reader finds after a run: what the kind of the last put on the key stores (`Kind.Stores`). -/

namespace Preferences.Store

namespace Kind

/-- The kind that a value is of, if it is of one. -/
def of? : Value → Option Kind
  | .bool _ => some bool
  | .int _ => some int
  | .float _ => some float
  | .text _ => some text
  | .frozenset _ => some textSet
  | _ => none

variable {kind : Kind} {key v stored : Value}

theorem fits_iff : kind.fits v = true ↔ of? v = some kind := by
  cases kind <;> cases v <;> simp [fits, of?]

theorem Stores.of?_eq (h : kind.Stores v (some stored)) : of? stored = some kind := by
  cases h <;> rfl

/-- What is stored for a value is of the kind that it is written by. -/
theorem of?_of_convert (h : kind.convert v = .ok (some stored)) : of? stored = some kind :=
  (stores_of_convert h).of?_eq

theorem write_eq_put_iff {other : Value} :
    kind.write key v = .ok (.put other stored) ↔
      key = other ∧ kind.convert v = .ok (some stored) := by
  unfold write
  cases converted : kind.convert v with
  | error misuse => simp [bind, Except.bind]
  | ok result => cases result <;> simp [bind, Except.bind, pure, Except.pure]

theorem write_eq_remove_iff {other : Value} :
    kind.write key v = .ok (.remove other) ↔ key = other ∧ kind.convert v = .ok none := by
  unfold write
  cases converted : kind.convert v with
  | error misuse => simp [bind, Except.bind]
  | ok result => cases result <;> simp [bind, Except.bind, pure, Except.pure]

theorem key_of_write {o : Operation} (h : kind.write key v = .ok o) : o.key = key := by
  unfold write at h
  cases converted : kind.convert v with
  | error misuse =>
      rw [converted] at h
      cases h
  | ok result =>
      rw [converted] at h
      cases result <;> exact (congrArg Operation.key (Except.ok.inj h)).symm

/-! ### Reading -/

variable {c : Contents} {value : Value}

theorem read_of_get?_eq_none (hk : key.isKey = true) (absent : c.get? key = none) (kind : Kind)
    (default : Value) : kind.read c key default = .ok default := by
  simp [read, hk, absent]

/-- A value is given to the reader of its kind. -/
theorem read_of_get?_eq_some (hk : key.isKey = true) (present : c.get? key = some value)
    (own : of? value = some kind) (default : Value) :
    kind.read c key default = .ok (view value) := by
  simp [read, hk, present, fits_iff.mpr own]

/-- Other readers are told what there is, under a key that can be written. -/
theorem read_of_other_kind (hk : key.isKey = true) (present : c.get? key = some value)
    (own : of? value = some kind) {other : Kind} (ne : other ≠ kind) (default : Value) :
    other.read c key default =
      .error (if key.isWritable then .otherKind key value else .misused .unwritable) := by
  have unfit : other.fits value = false := by
    rw [← Bool.not_eq_true, fits_iff, own]
    exact fun same => ne (Option.some.inj same).symm
  cases writable : key.isWritable <;> simp [read, hk, present, unfit, writable]

end Kind

/-! ### Contents -/

/-- The contents are a table with proper keys, and every value is of a kind. -/
structure Contents.Sound (c : Contents) : Prop where
  keyed : Table.Keyed c
  kinds : ∀ entry ∈ c, ∃ kind, Kind.of? entry.2 = some kind

theorem Contents.Sound.exists_kind {c : Contents} (h : Contents.Sound c) {key value : Value}
    (present : c.get? key = some value) : ∃ kind, Kind.of? value = some kind := by
  obtain ⟨entry, found, rfl⟩ := Option.map_eq_some_iff.mp present
  exact h.kinds entry (List.mem_of_find?_eq_some found)

/-- Every value that the deeds put is of a kind. -/
def PutsKinds (deeds : List Deed) : Prop :=
  ∀ key value, .operation (.put key value) ∈ deeds → ∃ kind, Kind.of? value = some kind

theorem Contents.Sound.replay {c : Contents} (h : Contents.Sound c) {deeds : List Deed}
    (proper : ProperKeys deeds) (puts : PutsKinds deeds) : Contents.Sound (replay deeds c) := by
  refine ⟨keyed_replay h.keyed proper, ?_⟩
  clear proper
  induction deeds using List.reverseRecOn with
  | nil => exact h.kinds
  | append_singleton deeds deed ih =>
      have before := ih fun key value there => puts key value (List.mem_append_left _ there)
      rw [replay_append]
      cases deed with
      | clear => nofun
      | operation o =>
          cases o with
          | put key value =>
              intro entry there
              rcases Table.mem_put entry there with new | ⟨old, ho, same⟩
              · rw [new]
                exact puts key value (List.mem_append_right _ (List.mem_singleton_self _))
              · rw [← same]
                exact before old ho
          | remove key => exact fun entry there => before entry (List.mem_of_mem_eraseP there)

/-! ### Steps -/

/-- The keys that the step brings are proper where they are keys, and so are the contents that it
brings. -/
def Step.Sound : Step → Prop
  | .put _ _ key _ | .remove _ key => key.isProper = true
  | .listen ⟨_, .put _ target _⟩ => target.isProper = true
  | .openContext _ initial => Contents.Sound initial
  | _ => True

/-- The steps ask for a put of this kind: one makes it, or registers a listener that does. -/
def PutAsked (steps : List Step) (kind : Kind) (key argument : Value) : Prop :=
  (∃ n, Step.put n kind key argument ∈ steps) ∨
    kind = .int ∧ ∃ name trigger, Step.listen ⟨name, .put trigger key argument⟩ ∈ steps

section asked
variable {steps : List Step}

theorem Asked.isProper {o : Operation} (h : Asked steps o)
    (sound : ∀ step ∈ steps, step.Sound) : o.key.isProper = true := by
  rcases h with ⟨step, member, recorded⟩ | ⟨⟨name, reaction⟩, member, answers⟩
  · have key := Step.key?_of_recorded? recorded
    have := sound step member
    cases step with
    | put | remove =>
        rw [← Option.some.inj key]
        exact this
    | _ => cases key
  · obtain ⟨trigger, target, number, rfl, written⟩ := answers
    rw [Kind.key_of_write written]
    exact sound _ member

/-- What is asked for is a removal, or what a put of some kind writes. -/
theorem Asked.exists_write {o : Operation} (h : Asked steps o) :
    (∃ n, Step.remove n o.key ∈ steps ∧ o = .remove o.key) ∨
      ∃ kind argument, PutAsked steps kind o.key argument ∧ kind.write o.key argument = .ok o := by
  rcases h with ⟨step, member, recorded⟩ | ⟨⟨name, reaction⟩, member, answers⟩
  · cases step with
    | put n kind other argument =>
        have written : kind.write other argument = .ok o := by
          simp only [Step.recorded?] at recorded
          cases result : kind.write other argument with
          | error misuse =>
              rw [result] at recorded
              cases recorded
          | ok made =>
              rw [result] at recorded
              exact congrArg _ (Option.some.inj recorded)
        obtain rfl := Kind.key_of_write written
        exact Or.inr ⟨kind, argument, Or.inl ⟨n, member⟩, written⟩
    | remove n other =>
        obtain rfl := Option.some.inj recorded
        exact Or.inl ⟨n, member, rfl⟩
    | _ => cases recorded
  · obtain ⟨trigger, target, number, rfl, written⟩ := answers
    obtain rfl := Kind.key_of_write written
    exact Or.inr ⟨.int, number, Or.inr ⟨rfl, name, trigger, member⟩, written⟩

/-- A put that is asked for is of the kind of its value. -/
theorem Asked.exists_put {key value : Value} (h : Asked steps (.put key value)) :
    ∃ kind argument, PutAsked steps kind key argument ∧
      kind.convert argument = .ok (some value) := by
  obtain ⟨-, -, other⟩ | ⟨kind, argument, puts, written⟩ := h.exists_write
  · cases other
  · exact ⟨kind, argument, puts, (Kind.write_eq_put_iff.mp written).2⟩

/-- A removal is asked for as such, or by a put of what nothing is stored for. -/
theorem Asked.exists_removal {key : Value} (h : Asked steps (.remove key)) :
    (∃ n, Step.remove n key ∈ steps) ∨
      ∃ kind argument, PutAsked steps kind key argument ∧ kind.Stores argument none := by
  obtain ⟨n, member, -⟩ | ⟨kind, argument, puts, written⟩ := h.exists_write
  · exact Or.inl ⟨n, member⟩
  · exact Or.inr ⟨kind, argument, puts,
      Kind.stores_of_convert (Kind.write_eq_remove_iff.mp written).2⟩

end asked

namespace Session

variable {s : Session} {steps made : List Step} {n : Nat}

/-- What is done in steps that bring proper keys is done to proper keys, and puts values of a
kind. -/
theorem deedsIn_sound (sound : ∀ step ∈ steps, step.Sound) (grounded : s.Grounded steps)
    (introduced : s.Introduced) (among : ∀ step ∈ made, step ∈ steps) :
    ProperKeys (s.deedsIn n made) ∧ PutsKinds (s.deedsIn n made) := by
  refine ⟨fun o h => ?_, fun key value h => ?_⟩
  · obtain ⟨isKey, asked⟩ := asked_of_mem_deedsIn grounded introduced among h
    exact ⟨isKey, asked.isProper sound⟩
  · obtain ⟨-, asked⟩ := asked_of_mem_deedsIn grounded introduced among h
    obtain ⟨kind, argument, -, converted⟩ := asked.exists_put
    exact ⟨kind, Kind.of?_of_convert converted⟩

def Sound (s : Session) : Prop := ∀ c ∈ s.held, Contents.Sound c

theorem sound_start {initial : Contents} (h : Contents.Sound initial) : (start initial).Sound :=
  List.forall_mem_singleton.mpr h

theorem Sound.store (h : s.Sound) (there : n < s.held.length) :
    Contents.Sound (s.store n).contents := by
  rw [store_contents, List.getElem?_eq_getElem there]
  exact h _ (List.getElem_mem there)

theorem Sound.step (h : s.Sound) (sound : ∀ step ∈ steps, step.Sound)
    (grounded : s.Grounded steps) (introduced : s.Introduced) {next : Step}
    (member : next ∈ steps) : (s.step next).2.Sound := by
  intro c hc
  obtain ⟨n, at_n⟩ := List.mem_iff_getElem?.mp hc
  rcases Nat.lt_or_ge n s.held.length with there | new
  · have only : s.deedsIn n [next] = s.deedsOn n next := List.append_nil _
    have after := step_held_of_lt there next
    rw [at_n, ← only] at after
    rw [Option.some.inj after]
    obtain ⟨proper, puts⟩ := deedsIn_sound (n := n) sound grounded introduced
      (List.forall_mem_singleton.mpr member)
    exact (h.store there).replay proper puts
  · obtain ⟨context, given, rfl⟩ := step_held_of_le new at_n
    obtain ⟨name, opened⟩ := grounded.context context given
    exact sound _ opened

theorem Sound.run (h : s.Sound) (sound : ∀ step ∈ steps, step.Sound)
    (grounded : s.Grounded steps) (introduced : s.Introduced)
    (among : ∀ step ∈ made, step ∈ steps) : (s.run made).2.Sound := by
  have kept : (s.run made).2.Sound ∧ (s.run made).2.Grounded steps ∧ (s.run made).2.Introduced :=
    run_keeps (P := fun t => t.Sound ∧ t.Grounded steps ∧ t.Introduced)
      (fun _ step member ⟨h, grounded, introduced⟩ =>
        ⟨h.step sound grounded introduced (among step member), grounded.step (among step member),
          introduced.step step⟩) ⟨h, grounded, introduced⟩
  exact kept.1

/-- **Values keep to their kinds.**  In every run that starts from contents of the five kinds, every
stored value is of one of them.  What a store holds under a key is told by the last deed on it since
an earlier point of the run; if that is a put, its value is what the kind of this value stores for
what a put of this kind has been given, which the steps have asked for; if it is a removal, they
have asked for that, or for a put of what nothing is stored for.  The reader of this kind gets the
value, and the others are told the key, if it can be written as every text can, and what it holds.
Without a value all readers get the default, and no read changes anything. -/
theorem run_kinds {initial : Contents} (founded : Contents.Sound initial)
    {before steps : List Step} (sound : ∀ step ∈ before ++ steps, step.Sound) :
    let s := ((start initial).run before).2
    let t := (s.run steps).2
    (∀ n < s.stores.length,
      let held := (t.store n).contents
      (∀ entry ∈ held, ∃ kind, Kind.of? entry.2 = some kind) ∧
      ∀ key : Value, key.ProperKey →
        held.get? key = ((lastOn? key (s.deedsIn n steps)).map Deed.value?).getD
          ((s.store n).contents.get? key) ∧
        (∀ other, lastOn? key (s.deedsIn n steps) = some (.operation (.remove other)) →
          (∃ m, Step.remove m other ∈ before ++ steps) ∨
            ∃ kind argument, PutAsked (before ++ steps) kind other argument ∧
              kind.Stores argument none) ∧
        (held.get? key = none → ∀ (kind : Kind) (default : Value),
          kind.read held key default = .ok default) ∧
        ∀ value, held.get? key = some value → ∃ kind, Kind.of? value = some kind ∧
          (∀ other, lastOn? key (s.deedsIn n steps) = some (.operation (.put other value)) →
            ∃ argument, PutAsked (before ++ steps) kind other argument ∧
              kind.convert argument = .ok (some value) ∧ kind.Stores argument (some value)) ∧
          ∀ default, kind.read held key default = .ok (Kind.view value) ∧
            ∀ other ≠ kind, ∃ fault, other.read held key default = .error fault ∧
              (key.isWritable = true → fault = .otherKind key value ∧ fault.message? =
                some ("Preference " ++ key.source ++ " holds a " ++ value.kindName))) ∧
    (∀ kind key default, t.step (.read kind key default) =
      ({ result := (kind.read (t.store t.current).contents key default).map Result.value }, t)) ∧
    (∀ key, (t.step (.contains key)).2 = t) ∧ (t.step .getAll).2 = t := by
  intro s t
  refine ⟨fun n there => ?_, fun _ _ _ => rfl, fun _ => t.step_of_isIdle rfl, rfl⟩
  have before_among : ∀ step ∈ before, step ∈ before ++ steps :=
    fun step h => List.mem_append_left _ h
  have steps_among : ∀ step ∈ steps, step ∈ before ++ steps :=
    fun step h => List.mem_append_right _ h
  have grounded : s.Grounded (before ++ steps) := (grounded_start _ initial).run before_among
  have introduced : s.Introduced := introduced_run initial before
  have held_sound : s.Sound := (sound_start founded).run sound (grounded_start _ initial)
    (introduced_start initial) before_among
  have there : n < s.held.length := by
    rw [held, List.length_map]
    exact there
  obtain ⟨proper, puts⟩ := deedsIn_sound (n := n) sound grounded introduced steps_among
  have first := held_sound.store there
  have made := run_contents there steps
  have last : Contents.Sound (t.store n).contents := by
    rw [made]
    exact first.replay proper puts
  have asked : ∀ {key : Value} {o : Operation},
      lastOn? key (s.deedsIn n steps) = some (.operation o) → Asked (before ++ steps) o := by
    intro key o latest
    have deed := List.mem_of_mem_filter (List.mem_of_getLast? latest)
    exact (asked_of_mem_deedsIn grounded introduced steps_among deed).2
  refine ⟨last.kinds, fun key hk => ⟨?_, fun other latest => (asked latest).exists_removal, ?_,
    fun value present => ?_⟩⟩
  · rw [made]
    exact get?_replay first.keyed proper hk
  · exact fun absent => Kind.read_of_get?_eq_none hk.isKey absent
  · obtain ⟨kind, own⟩ := last.exists_kind present
    refine ⟨kind, own, fun other latest => ?_, fun default => ⟨?_, fun other ne => ?_⟩⟩
    · obtain ⟨kind', argument, puts, converted⟩ := (asked latest).exists_put
      obtain rfl := Option.some.inj (own.symm.trans (Kind.of?_of_convert converted))
      exact ⟨argument, puts, converted, Kind.stores_of_convert converted⟩
    · exact Kind.read_of_get?_eq_some hk.isKey present own default
    · refine ⟨_, Kind.read_of_other_kind hk.isKey present own ne default, fun writable => ?_⟩
      rw [if_pos writable]
      exact ⟨rfl, rfl⟩

def twoKinds : Contents := [(.text "a", .bool true), (.text "b", .text "x")]

/-- Steps that have a truth value, an integer, a number and a list put by other kinds, and nothing
as a text. -/
def recording : List Step :=
  [.edit, .put 0 .int (.text "a") (.bool true), .put 0 .float (.text "d") (.int 3),
    .put 0 .text (.text "e") (.float (.ofWord false 0x4008000000000000)),
    .put 0 .textSet (.text "f") (.list [.text "y", .text "y"]), .put 0 .text (.text "b") .null]

/-- Steps that have it applied, with a listener that answers. -/
def applying : List Step := [.listen ⟨"l", .put (.text "a") (.text "c") (.int 4)⟩, .apply 0]

theorem run_kinds_twoKinds :
    let s := ((start twoKinds).run recording).2
    let held := ((s.run applying).2.store 0).contents
    ((∃ argument, PutAsked (recording ++ applying) .int (.text "a") argument ∧
        Kind.int.convert argument = .ok (some (.int 1)) ∧
        Kind.int.Stores argument (some (.int 1))) ∧
      Kind.int.read held (.text "a") .null = .ok (.int 1) ∧
      ∃ fault, Kind.bool.read held (.text "a") .null = .error fault ∧
        fault.message? = some "Preference 'a' holds a int") ∧
    Kind.float.read held (.text "d") .null = .ok (.float ⟨false, 0x4008000000000000⟩) ∧
    Kind.text.read held (.text "e") .null = .ok (.text "3.0") ∧
    Kind.textSet.read held (.text "f") .null = .ok (.set [.text "y"]) ∧
    ((∃ n, Step.remove n (.text "b") ∈ recording ++ applying) ∨
      ∃ kind argument, PutAsked (recording ++ applying) kind (.text "b") argument ∧
        kind.Stores argument none) ∧
    Kind.text.read held (.text "b") (.text "none") = .ok (.text "none") := by
  have founded : Contents.Sound twoKinds := by
    refine ⟨Table.TextKeyed.keyed ⟨by decide, by decide⟩, ?_⟩
    exact List.forall_mem_cons.mpr ⟨⟨.bool, rfl⟩, List.forall_mem_singleton.mpr ⟨.text, rfl⟩⟩
  have sound : ∀ step ∈ recording ++ applying, step.Sound := by
    simp [recording, applying, Step.Sound, Value.isProper]
  intro s held
  obtain ⟨stores, -⟩ := run_kinds founded sound
  obtain ⟨-, keys⟩ := stores 0 (by decide)
  have reads : ∀ (name : String) (kind : Kind) (value : Value), held.get? name = some value →
      Kind.of? value = some kind → kind.read held name .null = .ok (Kind.view value) := by
    intro name kind value present own
    obtain ⟨-, -, -, found⟩ := keys name (Value.properKey_of_isText rfl)
    obtain ⟨kind', own', -, told⟩ := found value present
    obtain rfl := Option.some.inj (own.symm.trans own')
    exact (told .null).1
  refine ⟨?_, reads "d" .float (.float ⟨false, 0x4008000000000000⟩) (by decide +kernel) rfl,
    reads "e" .text (.text "3.0") (by decide +kernel) rfl,
    reads "f" .textSet (.frozenset [.text "y"]) (by decide +kernel) rfl, ?_⟩
  · obtain ⟨-, -, -, found⟩ := keys (.text "a") (Value.properKey_of_isText rfl)
    obtain ⟨kind, own, asked, told⟩ := found (.int 1) (by decide +kernel)
    obtain rfl := Option.some.inj own
    obtain ⟨fault, raised, named⟩ := (told .null).2 .bool (by decide)
    have words : fault.message? = some "Preference 'a' holds a int" :=
      (named (Value.isWritable_text "a")).2.trans (by decide +kernel)
    exact ⟨asked (.text "a") (by decide +kernel), (told .null).1, fault, raised, words⟩
  · obtain ⟨-, removed, absent, -⟩ := keys (.text "b") (Value.properKey_of_isText rfl)
    exact ⟨removed (.text "b") (by decide +kernel), absent (by decide +kernel) _ _⟩

end Session

end Preferences.Store

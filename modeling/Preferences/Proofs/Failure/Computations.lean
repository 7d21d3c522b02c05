import Preferences.Proofs.Generation.Assembly

/-! # Computations that fail

A sequence of computations fails as the first one that does (`bind_eq_error_iff`), and a walk
through a list fails as it does at the first item where it does (`mapM_eq_error_iff`).  A
computation that only looks into values fails by a misuse of one, if at all (`Misuses`).  More
generally, `FailsOnly` says what kind of failure is to be expected, and `Meets` lists everything
that a computation could fail at, in order. -/

namespace Preferences

section except
variable {ε α β : Type}

theorem ok_bind (a : α) (f : α → Except ε β) : (Except.ok a >>= f) = f a := rfl

theorem bind_eq_error_iff {x : Except ε α} {f : α → Except ε β} {e : ε} :
    (x >>= f) = .error e ↔ x = .error e ∨ ∃ a, x = .ok a ∧ f a = .error e := by
  cases x <;> simp [bind, Except.bind]

theorem exists_bind_eq_ok_iff {x : Except ε α} {f : α → Except ε β} :
    (∃ b, (x >>= f) = .ok b) ↔ ∃ a, x = .ok a ∧ ∃ b, f a = .ok b := by
  cases x <;> simp [bind, Except.bind]

/-- Where the second goes on alike after all that the first can give, both have to succeed on their
own. -/
theorem bind_isOk_iff {x : Except ε α} {f : α → Except ε β} {goesOn : Prop}
    (alike : ∀ a, x = .ok a → ((∃ b, f a = .ok b) ↔ goesOn)) :
    (∃ b, (x >>= f) = .ok b) ↔ (∃ a, x = .ok a) ∧ goesOn := by
  rw [exists_bind_eq_ok_iff]
  constructor
  · rintro ⟨a, done, later⟩
    exact ⟨⟨a, done⟩, (alike a done).mp later⟩
  · rintro ⟨⟨a, done⟩, later⟩
    exact ⟨a, done, (alike a done).mpr later⟩

/-- A last step that cannot fail asks for nothing. -/
theorem bind_pure_isOk_iff {x : Except ε α} {f : α → β} :
    (∃ b, (x >>= fun a => pure (f a)) = .ok b) ↔ ∃ a, x = .ok a := by
  rw [exists_bind_eq_ok_iff]
  exact exists_congr fun a => and_iff_left ⟨f a, rfl⟩

theorem mapM_eq_error_iff {f : α → Except ε β} {xs : List α} {e : ε} :
    xs.mapM f = .error e ↔ ∃ before x after, xs = before ++ x :: after ∧
      (∀ earlier ∈ before, ∃ y, f earlier = .ok y) ∧ f x = .error e := by
  induction xs with
  | nil =>
      rw [List.mapM_nil]
      refine ⟨nofun, ?_⟩
      rintro ⟨before, x, after, split, -⟩
      simp at split
  | cons first rest ih =>
      rw [List.mapM_cons, bind_eq_error_iff]
      constructor
      · rintro (failed | ⟨y, done, later⟩)
        · exact ⟨[], first, rest, rfl, by simp, failed⟩
        · rcases bind_eq_error_iff.mp later with later | ⟨_, -, impossible⟩
          · obtain ⟨before, x, after, rfl, earlier, failed⟩ := ih.mp later
            exact ⟨first :: before, x, after, rfl,
              List.forall_mem_cons.mpr ⟨⟨y, done⟩, earlier⟩, failed⟩
          · cases impossible
      · rintro ⟨before, x, after, split, earlier, failed⟩
        rcases List.cons_eq_append_iff.mp split with ⟨rfl, same⟩ | ⟨before, rfl, rfl⟩
        · obtain ⟨rfl, rfl⟩ := List.cons.inj same
          exact Or.inl failed
        · obtain ⟨⟨y, done⟩, earlier⟩ := List.forall_mem_cons.mp earlier
          exact Or.inr ⟨y, done,
            bind_eq_error_iff.mpr (Or.inl (ih.mpr ⟨before, x, after, rfl, earlier, failed⟩))⟩

theorem exists_mapM_eq_ok_iff {f : α → Except ε β} {xs : List α} :
    (∃ ys, xs.mapM f = .ok ys) ↔ ∀ x ∈ xs, ∃ y, f x = .ok y := by
  induction xs with
  | nil => simp [pure, Except.pure]
  | cons first rest ih =>
      rw [List.mapM_cons, exists_bind_eq_ok_iff, List.forall_mem_cons, ← ih]
      constructor
      · rintro ⟨y, done, later⟩
        obtain ⟨ys, each, -⟩ := exists_bind_eq_ok_iff.mp later
        exact ⟨⟨y, done⟩, ys, each⟩
      · rintro ⟨⟨y, done⟩, ys, each⟩
        exact ⟨y, done, exists_bind_eq_ok_iff.mpr ⟨ys, each, y :: ys, rfl⟩⟩

end except

section misuses
variable {α β : Type}

theorem lift_ok (a : α) : (liftM (Except.ok a : Except Misuse α) : Except Failure α) = .ok a := rfl

/-- The computation fails only by misusing a value. -/
def Misuses (x : Except Failure α) : Prop := ∀ failure, x = .error failure →
  ∃ misuse, failure = .misused misuse

theorem misuses_ok (a : α) : Misuses (.ok a) := nofun

theorem misuses_mapError (x : Except Misuse α) : Misuses (x.mapError Failure.misused) := by
  intro failure failed
  cases x with
  | error misuse => exact ⟨misuse, (Except.error.inj failed).symm⟩
  | ok a => cases failed

theorem Misuses.bind {x : Except Failure α} {f : α → Except Failure β} (h : Misuses x)
    (next : ∀ a, x = .ok a → Misuses (f a)) : Misuses (x >>= f) := by
  intro failure failed
  rcases bind_eq_error_iff.mp failed with failed | ⟨a, done, failed⟩
  · exact h failure failed
  · exact next a done failure failed

theorem Misuses.mapM {f : α → Except Failure β} {xs : List α} (each : ∀ x ∈ xs, Misuses (f x)) :
    Misuses (xs.mapM f) := by
  intro failure failed
  obtain ⟨before, x, after, rfl, -, failed⟩ := mapM_eq_error_iff.mp failed
  exact each x (by simp) failure failed

theorem Misuses.exists_error {x : Except Failure α} (h : Misuses x) (fails : ¬∃ a, x = .ok a) :
    ∃ misuse, x = .error (.misused misuse) := by
  cases x with
  | ok a => exact absurd ⟨a, rfl⟩ fails
  | error failure =>
      obtain ⟨misuse, rfl⟩ := h failure rfl
      exact ⟨misuse, rfl⟩

end misuses

section expectations
variable {α β : Type} {expected : Failure → Bool}

/-- The computation fails only as expected, if at all. -/
def FailsOnly (expected : Failure → Bool) (x : Except Failure α) : Prop :=
  ∀ failure, x = .error failure → expected failure = true

theorem failsOnly_ok (a : α) : FailsOnly expected (.ok a) := nofun

theorem failsOnly_error_iff {failure : Failure} :
    FailsOnly expected (.error failure : Except Failure α) ↔ expected failure = true :=
  ⟨fun h => h failure rfl, fun h _ same => Except.error.inj same ▸ h⟩

theorem failsOnly_bind_iff {x : Except Failure α} {f : α → Except Failure β} :
    FailsOnly expected (x >>= f) ↔
      FailsOnly expected x ∧ ∀ a, x = .ok a → FailsOnly expected (f a) := by
  constructor
  · intro h
    exact ⟨fun failure failed => h failure (bind_eq_error_iff.mpr (Or.inl failed)),
      fun a done failure failed => h failure (bind_eq_error_iff.mpr (Or.inr ⟨a, done, failed⟩))⟩
  · rintro ⟨first, next⟩ failure failed
    rcases bind_eq_error_iff.mp failed with failed | ⟨a, done, failed⟩
    · exact first failure failed
    · exact next a done failure failed

/-- How a walk through a list fails is settled by the first item where it does. -/
theorem failsOnly_mapM_iff {f : α → Except Failure β} {xs : List α} :
    FailsOnly expected (xs.mapM f) ↔
      ∀ x ∈ xs.find? fun x => !(f x).isOk, FailsOnly expected (f x) := by
  induction xs with
  | nil => exact iff_of_true (failsOnly_ok _) nofun
  | cons first rest ih =>
      rw [List.mapM_cons, failsOnly_bind_iff, List.find?_cons]
      cases reached : f first with
      | error failure =>
          have fails : (!(Except.error failure : Except Failure β).isOk) = true := rfl
          simp [fails, reached]
      | ok y =>
          have last : FailsOnly expected (rest.mapM f >>= fun ys => pure (y :: ys)) ↔
              FailsOnly expected (rest.mapM f) := by
            rw [failsOnly_bind_iff, and_iff_left]
            exact fun ys _ => failsOnly_ok (y :: ys)
          have done : (!(Except.ok y : Except Failure β).isOk) = false := rfl
          simp only [done, ← ih, ← last]
          simp [failsOnly_ok]

end expectations

section meets
variable {α β : Type} {x : Except Failure α} {flaws more : List Failure}

/-- The computation fails with the first of the flaws, and succeeds if there is none. -/
def Meets (x : Except Failure α) : List Failure → Prop
  | [] => ∃ a, x = .ok a
  | flaw :: _ => x = .error flaw

theorem meets_ok (a : α) : Meets (.ok a) [] := ⟨a, rfl⟩

theorem Meets.eq_error_iff (h : Meets x flaws) {failure : Failure} :
    x = .error failure ↔ flaws.head? = some failure := by
  cases flaws with
  | nil =>
      obtain ⟨a, rfl⟩ := h
      simp
  | cons flaw rest =>
      obtain rfl : x = .error flaw := h
      simp

theorem Meets.failsOnly_iff (h : Meets x flaws) {expected : Failure → Bool} :
    FailsOnly expected x ↔ ∀ flaw ∈ flaws.head?, expected flaw = true := by
  simp only [FailsOnly, h.eq_error_iff, Option.mem_def]

theorem Meets.bind {f : α → Except Failure β} (h : Meets x flaws)
    (next : ∀ a, x = .ok a → Meets (f a) more) : Meets (x >>= f) (flaws ++ more) := by
  cases flaws with
  | nil =>
      obtain ⟨a, rfl⟩ := h
      exact next a rfl
  | cons flaw rest =>
      obtain rfl : x = .error flaw := h
      rfl

theorem Meets.mapM {f : β → Except Failure α} {xs : List β} {flawsOf : β → List Failure}
    (each : ∀ b, Meets (f b) (flawsOf b)) : Meets (xs.mapM f) (xs.flatMap flawsOf) := by
  induction xs with
  | nil => exact meets_ok []
  | cons first rest ih =>
      rw [List.mapM_cons, List.flatMap_cons]
      refine (each first).bind fun a _ => ?_
      rw [← List.append_nil (rest.flatMap flawsOf)]
      exact ih.bind fun as _ => meets_ok (a :: as)

end meets

theorem requireWritable_eq_ok_iff {values : List Value} {u : Unit} :
    Value.requireWritable values = .ok u ↔ values.all Value.isWritable = true := by
  unfold Value.requireWritable
  split_ifs with writable <;> simp [writable]

theorem requireWritable_isOk_iff {values : List Value} :
    (∃ u, Value.requireWritable values = .ok u) ↔ values.all Value.isWritable = true :=
  ⟨fun ⟨_, done⟩ => requireWritable_eq_ok_iff.mp done,
    fun writable => ⟨(), requireWritable_eq_ok_iff.mpr writable⟩⟩

/-- The least number that is too long to be written. -/
def longNumber : Int := .ofNat (Nat.pow 10 Numeral.maxDigits)

theorem longNumber_unwritable : (Value.int longNumber).isWritable = false := by decide +kernel

theorem ofRejection_eq_rejected_iff {r out : Rejection} :
    Failure.ofRejection r = .rejected out ↔ r.values.all Value.isWritable = true ∧ r = out := by
  unfold Failure.ofRejection
  by_cases writable : r.values.all Value.isWritable = true
  · rw [if_pos writable, Failure.rejected.injEq, and_iff_right writable]
  · rw [if_neg writable]
    exact iff_of_false nofun fun h => writable h.1

/-- A rejection on a line that cannot be written does not come out. -/
theorem ofRejection_of_unwritable {r : Rejection} {location : Location}
    (located : r.location = some location) (long : location.line.isWritable = false) :
    Failure.ofRejection r = .misused .unwritable := by
  rw [Failure.ofRejection, if_neg]
  simp [Rejection.values, located, long]

end Preferences

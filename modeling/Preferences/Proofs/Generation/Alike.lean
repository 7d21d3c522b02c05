import Preferences.Proofs.Failure.Computations
import Preferences.Proofs.Members.Accessors

/-! # Declarations that are generated alike

Two preferences may differ in how they are put and still mean the same: a key that is left out is
the name, and a default that is left out is that of the type (`Preference.Alike`).  They have the
same accessors (`accessors_eq_of_alike`), and so declarations that differ only in such preferences
give the same class or the same failure, and lists of them the same report
(`generateAll_eq_of_alike`). -/

namespace Preferences

/-- The preferences are put differently at most in a key that is the name anyway, or in a default
that is that of the type anyway. -/
structure Preference.Alike (table : StorageTable) (p q : Preference) : Prop where
  name : p.name = q.name
  valueType : p.valueType = q.valueType
  getter : p.getter = q.getter
  setter : p.setter = q.setter
  remover : p.remover = q.remover
  location : p.location = q.location
  key : p.storageKey = q.storageKey
  default : p.default = q.default ∨ p.default = "" ∧ ∀ valueType method,
    p.valueType = .text valueType → table.resolve? valueType = some method →
      q.default = method.default.plain ∧ method.default.isWritable = true

/-- The declarations differ at most in preferences that are alike. -/
structure Declaration.Alike (table : StorageTable) (d e : Declaration) : Prop where
  source : d.source = e.source
  name : d.name = e.name
  isInterface : d.isInterface = e.isInterface
  store : d.store = e.store
  hook : d.hook = e.hook
  location : d.location = e.location
  preferences : List.Forall₂ (Preference.Alike table) d.preferences e.preferences

theorem Preference.Alike.refl {table : StorageTable} (p : Preference) : p.Alike table p :=
  ⟨rfl, rfl, rfl, rfl, rfl, rfl, rfl, Or.inl rfl⟩

theorem Declaration.Alike.refl {table : StorageTable} (d : Declaration) : d.Alike table d :=
  ⟨rfl, rfl, rfl, rfl, rfl, rfl, List.forall₂_same.mpr fun p _ => Preference.Alike.refl p⟩

theorem mapM_eq_of_forall₂ {ε α β γ : Type} {f : α → Except ε γ} {g : β → Except ε γ} {xs : List α}
    {ys : List β} (same : List.Forall₂ (fun x y => f x = g y) xs ys) : xs.mapM f = ys.mapM g := by
  induction same with
  | nil => rfl
  | cons first _ ih => rw [List.mapM_cons, List.mapM_cons, first, ih]

namespace Members

variable {table : StorageTable} {p q : Preference} {valueType : String} {method : StorageMethod}

section alike
variable (alike : p.Alike table q) (typed : p.valueType = .text valueType)
  (found : table.resolve? valueType = some method)
include alike typed found

theorem defaultExpression_eq_of_alike :
    defaultExpression p method = defaultExpression q method := by
  rcases alike.default with same | ⟨omitted, given⟩
  · rw [defaultExpression, same, defaultExpression]
  · obtain ⟨plain, -⟩ := given valueType method typed found
    unfold defaultExpression
    rw [omitted, plain]
    by_cases empty : method.default.plain = "" <;> simp [empty]

/-- What the getters are written with can be written in both cases, or in neither. -/
theorem requireWritable_eq_of_alike :
    Value.requireWritable (getterValues p method) =
      Value.requireWritable (getterValues q method) := by
  unfold getterValues
  rw [alike.key]
  rcases alike.default with same | ⟨omitted, given⟩
  · rw [same]
  · obtain ⟨-, writable⟩ := given valueType method typed found
    rw [omitted]
    unfold Value.requireWritable
    split_ifs <;> simp_all

theorem accessors_eq_of_alike (style : Naming.Style) :
    accessors style p valueType method = accessors style q valueType method := by
  have getters : getter p valueType method = getter q valueType method := by
    unfold getter
    rw [alike.getter, alike.key, defaultExpression_eq_of_alike alike typed found]
  have setters : setter style p valueType method = setter style q valueType method := by
    unfold setter identity parameterName
    rw [alike.setter, alike.name, alike.key]
  have removers : remover style p = remover style q := by
    unfold remover identity
    rw [alike.remover, alike.name, alike.key]
  rw [accessors_eq, accessors_eq, requireWritable_eq_of_alike alike typed found, getters, setters,
    removers, alike.setter, alike.remover]

end alike

end Members

namespace Generator

variable {g : Generator} {d e : Declaration} {p q : Preference}

/-- Preferences that are alike have a type of the same store operations, or are rejected alike. -/
theorem resolve_of_alike (alike : p.Alike g.table q) (name : d.name = e.name)
    (location : d.location = e.location) :
    (∃ failure, g.resolve d p = .error failure ∧ g.resolve e q = .error failure) ∨
      ∃ r s, g.resolve d p = .ok r ∧ g.resolve e q = .ok s ∧
        Members.accessors g.style r.preference r.valueType r.method =
          Members.accessors g.style s.preference s.valueType s.method := by
  unfold resolve
  rw [← alike.valueType, ← alike.location, ← name, ← location]
  cases typed : p.valueType with
  | text valueType =>
      cases found : g.table.resolve? valueType with
      | none =>
          simp only [found]
          exact Or.inl ⟨_, rfl, rfl⟩
      | some method =>
          simp only [found]
          exact Or.inr ⟨⟨p, valueType, method⟩, ⟨q, valueType, method⟩, rfl, rfl,
            Members.accessors_eq_of_alike alike typed found g.style⟩
  | _ => exact Or.inl ⟨_, rfl, rfl⟩

theorem methods_eq_of_alike (alike : d.Alike g.table e) : g.methods d = g.methods e := by
  have resolved : ∀ {ps qs : List Preference}, List.Forall₂ (Preference.Alike g.table) ps qs →
      (∃ failure, ps.mapM (g.resolve d) = .error failure ∧
        qs.mapM (g.resolve e) = .error failure) ∨
      ∃ rs ss, ps.mapM (g.resolve d) = .ok rs ∧ qs.mapM (g.resolve e) = .ok ss ∧
        List.Forall₂ (fun r s => Members.accessors g.style r.preference r.valueType r.method =
          Members.accessors g.style s.preference s.valueType s.method) rs ss := by
    intro ps qs each
    induction each with
    | nil => exact Or.inr ⟨[], [], rfl, rfl, List.Forall₂.nil⟩
    | cons first _ ih =>
        rw [List.mapM_cons, List.mapM_cons]
        rcases resolve_of_alike first alike.name alike.location with
          ⟨failure, one, other⟩ | ⟨r, s, one, other, same⟩
        · exact Or.inl ⟨failure, by rw [one]; rfl, by rw [other]; rfl⟩
        · rw [one, other, ok_bind, ok_bind]
          rcases ih with ⟨failure, rest, rest'⟩ | ⟨rs, ss, rest, rest', later⟩
          · exact Or.inl ⟨failure, by rw [rest]; rfl, by rw [rest']; rfl⟩
          · exact Or.inr ⟨r :: rs, s :: ss, by rw [rest]; rfl, by rw [rest']; rfl,
              List.Forall₂.cons same later⟩
  have shared : Members.constructor d = Members.constructor e := by
    unfold Members.constructor
    rw [alike.store, alike.hook]
  unfold Generator.methods
  rcases resolved alike.preferences with ⟨failure, one, other⟩ | ⟨rs, ss, one, other, same⟩
  · rw [one, other]
    rfl
  · have accessors := mapM_eq_of_forall₂ (same.imp fun r s h =>
      congrArg (liftM : Except Misuse _ → Except Failure _) h)
    rw [one, other, ok_bind, ok_bind, accessors, shared, alike.name, alike.store, alike.hook]

theorem generate_eq_of_alike (alike : d.Alike g.table e) : g.generate d = g.generate e := by
  have assembled : g.assemble d = g.assemble e := by
    funext methods
    unfold assemble imports
    rw [alike.name, alike.source, alike.isInterface, alike.store]
  unfold generate
  rw [methods_eq_of_alike alike, assembled, alike.name, alike.location]

theorem generateAll_eq_of_alike {ds es : List Declaration}
    (alike : List.Forall₂ (Declaration.Alike g.table) ds es) :
    g.generateAll ds = g.generateAll es := by
  have next : ∀ r {d e : Declaration}, d.Alike g.table e → g.addTo r d = g.addTo r e := by
    intro r d e h
    unfold addTo Rejection.diagnostic
    rw [generate_eq_of_alike h, h.name]
  unfold generateAll
  generalize ({} : Report) = r
  induction alike generalizing r with
  | nil => rfl
  | cons first _ ih =>
      rw [List.foldlM_cons, List.foldlM_cons, next r first]
      exact congrArg (g.addTo r _ >>= ·) (funext ih)

end Generator

end Preferences

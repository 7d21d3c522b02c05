import Mathlib.Data.List.Forall2
import Preferences.Report

/-! # What generation has done when it succeeds

A class that is generated has been assembled from the methods of its declaration, which are, in
their order, the one that returns the instance, the group of each preference and the ones that every
class has (`generate_ok`, `methods_ok`); and no two of them have the same name.  A report without
errors holds the class of every declaration (`generateAll_ok`). -/

namespace Preferences

/-! ### Computations that succeed -/

section except
variable {ε δ α β : Type}

theorem bind_eq_ok_iff {x : Except ε α} {f : α → Except ε β} {b : β} :
    (x >>= f) = .ok b ↔ ∃ a, x = .ok a ∧ f a = .ok b := by
  cases x <;> simp [bind, Except.bind]

theorem mapError_eq_ok_iff {f : ε → δ} {x : Except ε α} {a : α} :
    x.mapError f = .ok a ↔ x = .ok a := by
  cases x <;> simp [Except.mapError]

theorem mapError_isOk_iff {f : ε → δ} {x : Except ε α} :
    (∃ a, x.mapError f = .ok a) ↔ ∃ a, x = .ok a :=
  exists_congr fun _ => mapError_eq_ok_iff

theorem exists_ok_of_isSome {x : Except ε α} (h : x.toOption.isSome = true) : ∃ a, x = .ok a := by
  cases x with
  | error failure => cases h
  | ok a => exact ⟨a, rfl⟩

theorem mapM_eq_ok_iff {f : α → Except ε β} {xs : List α} {ys : List β} :
    xs.mapM f = .ok ys ↔ List.Forall₂ (fun x y => f x = .ok y) xs ys := by
  induction xs generalizing ys with
  | nil =>
      rw [List.mapM_nil, List.forall₂_nil_left_iff]
      exact ⟨fun h => (Except.ok.inj h).symm, fun h => congrArg _ h.symm⟩
  | cons x rest ih =>
      rw [List.mapM_cons, bind_eq_ok_iff, List.forall₂_cons_left_iff]
      constructor
      · rintro ⟨y, first, later⟩
        obtain ⟨ys', later, same⟩ := bind_eq_ok_iff.mp later
        exact ⟨y, ys', first, ih.mp later, (Except.ok.inj same).symm⟩
      · rintro ⟨y, ys', first, later, rfl⟩
        exact ⟨y, first, bind_eq_ok_iff.mpr ⟨ys', ih.mpr later, rfl⟩⟩

theorem forall_of_forall₂ {R : α → β → Prop} {fits : α → Prop} {fits' : β → Prop}
    {xs : List α} {ys : List β} (each : List.Forall₂ R xs ys) (all : ∀ x ∈ xs, fits x)
    (made : ∀ x y, fits x → R x y → fits' y) : ∀ y ∈ ys, fits' y := by
  induction each with
  | nil => nofun
  | cons first _ ih =>
      obtain ⟨now, later⟩ := List.forall_mem_cons.mp all
      exact List.forall_mem_cons.mpr ⟨made _ _ now first, ih later⟩

end except

theorem Report.ok_append_iff {r s : Report} :
    (r.append s).ok = true ↔ r.ok = true ∧ s.ok = true := by
  simp [Report.ok, Report.errors, Report.append]

namespace Generator

variable {g : Generator} {d : Declaration} {c : ClassDef}

/-! ### A class -/

theorem resolve_ok {p : Preference} {r : Resolved} (h : g.resolve d p = .ok r) :
    r.preference = p ∧ p.valueType = .text r.valueType ∧
      g.table.resolve? r.valueType = some r.method := by
  unfold resolve at h
  split at h
  · next valueType typed =>
      split at h
      · next method found =>
          obtain rfl := Except.ok.inj h
          exact ⟨rfl, typed, found⟩
      · cases h
  · cases h

theorem methods_ok {methods : List MethodDef} (h : g.methods d = .ok methods) :
    ∃ resolved groups,
      List.Forall₂ (fun p r => g.resolve d p = .ok r) d.preferences resolved ∧
      List.Forall₂ (fun r group =>
        Members.accessors g.style r.preference r.valueType r.method = .ok group) resolved groups ∧
      methods = Members.getInstance d.name.plain :: groups.flatten ++
        [Members.constructor d, Members.clear, Members.beginTransaction d.name.plain] := by
  unfold Generator.methods at h
  obtain ⟨resolved, each, h⟩ := bind_eq_ok_iff.mp h
  obtain ⟨-, -, h⟩ := bind_eq_ok_iff.mp h
  obtain ⟨groups, made, h⟩ := bind_eq_ok_iff.mp h
  obtain ⟨-, -, h⟩ := bind_eq_ok_iff.mp h
  refine ⟨resolved, groups, mapM_eq_ok_iff.mp each, ?_, (Except.ok.inj h).symm⟩
  exact (mapM_eq_ok_iff.mp made).imp fun r group h => mapError_eq_ok_iff.mp h

/-- A class that is generated is assembled from methods with different names. -/
theorem generate_ok (h : g.generate d = .ok c) :
    ∃ methods, g.methods d = .ok methods ∧
      firstRepeated [] (methods.map (·.name)) = .ok none ∧ c = g.assemble d methods := by
  unfold generate at h
  obtain ⟨methods, made, h⟩ := bind_eq_ok_iff.mp h
  obtain ⟨repeated, found, h⟩ := bind_eq_ok_iff.mp h
  refine ⟨methods, made, ?_⟩
  cases repeated with
  | some name => cases h
  | none => exact ⟨mapError_eq_ok_iff.mp found, (Except.ok.inj h).symm⟩

/-- Where no name is repeated, each can be looked up and no two count as the same. -/
theorem firstRepeated_eq_none {seen names : List Value} (h : firstRepeated seen names = .ok none) :
    (∀ name ∈ names, ∀ other ∈ seen, other.same name = false) ∧
      names.Pairwise fun name other => name.same other = false := by
  induction names generalizing seen with
  | nil => exact ⟨by simp, List.Pairwise.nil⟩
  | cons name rest ih =>
      unfold firstRepeated at h
      split at h
      · cases h
      · next new =>
          split at h
          · cases h
          · obtain ⟨fresh, different⟩ := ih h
            have old : ∀ other ∈ seen, other.same name = false := by
              intro other ho
              by_contra same
              exact new (List.any_eq_true.mpr ⟨other, ho, by simpa using same⟩)
            refine ⟨List.forall_mem_cons.mpr ⟨old, ?_⟩, List.pairwise_cons.mpr ⟨?_, different⟩⟩
            · exact fun later hl other ho => fresh later hl other (List.mem_append_left _ ho)
            · exact fun later hl => fresh later hl name (by simp)

theorem generate_names_different (h : g.generate d = .ok c) :
    (c.methods.map (·.name)).Pairwise fun name other => name.same other = false := by
  obtain ⟨methods, -, unrepeated, rfl⟩ := generate_ok h
  exact (firstRepeated_eq_none unrepeated).2

/-! ### A report -/

/-- A report with the outcome of one more declaration goes on with the report on it alone. -/
theorem addTo_eq_map (r : Report) (d : Declaration) :
    g.addTo r d = (g.addTo {} d).map r.append := by
  unfold addTo
  cases g.generate d with
  | ok c => simp [Except.map, Report.addType, Report.append]
  | error failure =>
      cases failure <;> simp [Except.map, Report.addDiagnostic, Report.append]

/-- A report goes on with the report on the declarations that come next. -/
theorem foldlM_addTo_eq_map (r : Report) (ds : List Declaration) :
    ds.foldlM g.addTo r = (g.generateAll ds).map r.append := by
  -- Every declaration adds to the report, so the induction is for any report to begin with.
  induction ds generalizing r with
  | nil => simp [generateAll, pure, Except.pure, Except.map, Report.append]
  | cons d rest ih =>
      rw [generateAll, List.foldlM_cons, List.foldlM_cons, addTo_eq_map]
      cases g.addTo {} d with
      | error failure => rfl
      | ok first =>
          show rest.foldlM g.addTo (r.append first) = (rest.foldlM g.addTo first).map r.append
          rw [ih (r.append first), ih first]
          cases g.generateAll rest with
          | error failure => rfl
          | ok later => simp [Except.map, Report.append, List.append_assoc]

theorem generateAll_append (before after : List Declaration) :
    g.generateAll (before ++ after) = do
      let first ← g.generateAll before
      let second ← g.generateAll after
      return first.append second := by
  rw [generateAll, List.foldlM_append]
  refine bind_congr fun first => ?_
  rw [foldlM_addTo_eq_map]
  cases g.generateAll after <;> rfl

theorem generateAll_cons (d : Declaration) (rest : List Declaration) :
    g.generateAll (d :: rest) = do
      let first ← g.addTo {} d
      let later ← g.generateAll rest
      return first.append later := by
  rw [← List.singleton_append, generateAll_append, generateAll, List.foldlM_cons]
  cases g.addTo {} d <;> rfl

/-- A report without errors holds the class of every declaration, in order. -/
theorem generateAll_ok {declarations : List Declaration} {report : Report}
    (h : g.generateAll declarations = .ok report) (ok : report.ok = true) :
    List.Forall₂ (fun d c => g.generate d = .ok c) declarations report.types := by
  induction declarations generalizing report with
  | nil =>
      obtain rfl := Except.ok.inj h
      exact .nil
  | cons d rest ih =>
      rw [generateAll_cons] at h
      obtain ⟨first, added, h⟩ := bind_eq_ok_iff.mp h
      obtain ⟨later, reported, same⟩ := bind_eq_ok_iff.mp h
      obtain rfl := Except.ok.inj same
      obtain ⟨now, ok⟩ := Report.ok_append_iff.mp ok
      unfold addTo at added
      split at added
      · next c made =>
          obtain rfl := Except.ok.inj added
          exact .cons made (ih reported ok)
      · next rejection refused =>
          obtain rfl := Except.ok.inj added
          cases now
      · cases added

end Generator

end Preferences

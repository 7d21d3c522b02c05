import Mathlib.Data.List.Induction
import Mathlib.Data.List.Nodup
import Mathlib.Data.List.Perm.Basic
import Mathlib.Data.String.Basic
import Preferences.Source.ImportLines

/-! # What merged imports hold

What `merge` collects import by import is told by the imports at once (`keys_merge`, `modulesIn_eq`,
`namesFrom_eq`).  It loses no import and makes none up: a group is there if an import is of it
(`mem_groups`), a module if one names it (`mem_modulesIn`), and a name if one asks for it
(`mem_namesFrom`).  In the order in which they are written, the modules of a group ascend
(`mergedModules_pairwise`). -/

namespace Preferences.Source

/-! ### Each element once -/

section once
variable {α β : Type} [DecidableEq α]

/-- Each element once, in the order of the first occurrences. -/
def once (xs : List α) : List α := xs.foldl insertNew []

theorem once_append (xs ys : List α) : once (xs ++ ys) = ys.foldl insertNew (once xs) :=
  List.foldl_append

theorem mem_insertNew {xs : List α} {x y : α} : y ∈ insertNew xs x ↔ y ∈ xs ∨ y = x := by
  unfold insertNew
  split_ifs with known
  · constructor
    · exact Or.inl
    · rintro (h | rfl)
      · exact h
      · exact known
  · rw [List.mem_append, List.mem_singleton]

theorem nodup_insertNew {xs : List α} (nodup : xs.Nodup) (x : α) : (insertNew xs x).Nodup := by
  unfold insertNew
  split_ifs with known
  · exact nodup
  · refine List.nodup_append.mpr ⟨nodup, List.nodup_singleton x, ?_⟩
    rintro y hy z hz rfl
    exact known (List.mem_singleton.mp hz ▸ hy)

@[simp] theorem mem_once {xs : List α} {x : α} : x ∈ once xs ↔ x ∈ xs := by
  induction xs using List.reverseRecOn with
  | nil => rfl
  | append_singleton xs y ih =>
      rw [once_append, List.foldl_cons, List.foldl_nil, mem_insertNew, ih, List.mem_append,
        List.mem_singleton]

theorem nodup_once (xs : List α) : (once xs).Nodup := by
  induction xs using List.reverseRecOn with
  | nil => exact List.nodup_nil
  | append_singleton xs x ih =>
      rw [once_append]
      exact nodup_insertNew ih x

/-! ### Changed entries -/

variable {key other : α} {first : β} {change : β → β} {entries : List (α × β)}

theorem keys_changeAt :
    (changeAt key first change entries).map Prod.fst = insertNew (entries.map Prod.fst) key := by
  induction entries with
  | nil => rfl
  | cons entry rest ih =>
      rw [changeAt]
      split_ifs with own
      · simp [insertNew, own]
      · rw [List.map_cons, List.map_cons, ih]
        by_cases known : key ∈ rest.map Prod.fst <;> simp [insertNew, known, Ne.symm own]

theorem lookup_cons_eq (key : α) (entry : α × β) (rest : List (α × β)) :
    (entry :: rest).lookup key = if key = entry.1 then some entry.2 else rest.lookup key := by
  split_ifs with own
  · rw [own]
    exact List.lookup_cons_self
  · have apart : (key == entry.1) = false := beq_false_of_ne own
    rw [← Prod.mk.eta (p := entry), List.lookup_cons, apart]

theorem lookup_changeAt :
    (changeAt key first change entries).lookup other =
      if other = key then some (change ((entries.lookup key).getD first))
      else entries.lookup other := by
  induction entries with
  | nil =>
      rw [changeAt, lookup_cons_eq]
      rfl
  | cons entry rest ih =>
      rw [changeAt]
      by_cases here : entry.1 = key
      · rw [if_pos here, lookup_cons_eq, lookup_cons_eq, lookup_cons_eq, here, if_pos rfl]
        split_ifs <;> rfl
      · rw [if_neg here, lookup_cons_eq, lookup_cons_eq, lookup_cons_eq, if_neg (Ne.symm here), ih]
        split_ifs with there own
        · exact absurd (there.symm.trans own) here
        all_goals rfl

end once

/-! ### The merge in closed form -/

section closed
variable (imports : List Import) (i : Import) (group : Int) (module : Value)

theorem merge_concat : merge (imports ++ [i]) =
    changeAt i.group [] (changeAt i.module [] (i.names.foldl insertNew ·)) (merge imports) :=
  List.foldl_append

theorem keys_merge : (merge imports).map Prod.fst = once (imports.map (·.group)) := by
  induction imports using List.reverseRecOn with
  | nil => rfl
  | append_singleton imports i ih =>
      rw [merge_concat, keys_changeAt, ih, List.map_append, once_append]
      rfl

theorem modulesOf_concat : modulesOf (imports ++ [i]) group =
    if group = i.group then
      changeAt i.module [] (i.names.foldl insertNew ·) (modulesOf imports group)
    else modulesOf imports group := by
  unfold modulesOf
  rw [merge_concat, lookup_changeAt]
  split_ifs with own
  · rw [own, Option.getD_some]
  · rfl

theorem modulesIn_eq :
    modulesIn imports group = once ((imports.filter (·.group = group)).map (·.module)) := by
  unfold modulesIn
  induction imports using List.reverseRecOn with
  | nil => rfl
  | append_singleton imports i ih =>
      rw [modulesOf_concat, List.filter_append, List.map_append, once_append, ← ih]
      by_cases own : group = i.group
      · rw [if_pos own, keys_changeAt]
        simp [own]
      · rw [if_neg own]
        simp [Ne.symm own]

/-- The names of a module in a group are those that its imports ask for. -/
theorem namesFrom_eq : namesFrom imports group module = ascending (once
    ((imports.filter fun i => i.group = group ∧ i.module = module).flatMap (·.names))) := by
  unfold namesFrom
  congr 1
  induction imports using List.reverseRecOn with
  | nil => rfl
  | append_singleton imports i ih =>
      rw [modulesOf_concat, List.filter_append, List.flatMap_append, once_append, ← ih]
      by_cases own : group = i.group
      · rw [if_pos own, lookup_changeAt]
        by_cases named : module = i.module
        · simp [own, named]
        · simp [named, Ne.symm named]
      · rw [if_neg own]
        simp [Ne.symm own]

end closed

/-! ### What is there -/

theorem pairwise_mergeSort_key {α β : Type} [LinearOrder β] (key : α → β) {le : α → α → Bool}
    (by_key : ∀ a b, le a b = true ↔ key a ≤ key b) (xs : List α) :
    (xs.mergeSort le).Pairwise fun a b => key a ≤ key b := by
  have sorted := List.pairwise_mergeSort
    (fun a b c ab bc => (by_key a c).mpr (le_trans ((by_key a b).mp ab) ((by_key b c).mp bc)))
    (fun a b => by simpa [by_key] using le_total (key a) (key b)) xs
  exact sorted.imp fun h => (by_key _ _).mp h

@[simp] theorem mem_ascending {texts : List String} {text : String} :
    text ∈ ascending texts ↔ text ∈ texts := (List.mergeSort_perm _ _).mem_iff

section merged
variable {imports : List Import} {group : Int} {module : Value} {name : String}

theorem mem_groups : group ∈ groups imports ↔ ∃ i ∈ imports, i.group = group := by
  rw [groups, (List.mergeSort_perm _ _).mem_iff, keys_merge, mem_once, List.mem_map]

theorem groups_pairwise (imports : List Import) : (groups imports).Pairwise (· ≤ ·) :=
  pairwise_mergeSort_key id (fun _ _ => decide_eq_true_iff) _

theorem nodup_groups (imports : List Import) : (groups imports).Nodup :=
  (List.mergeSort_perm _ _).nodup_iff.mpr (keys_merge imports ▸ nodup_once _)

theorem mem_modulesIn :
    module ∈ modulesIn imports group ↔ ∃ i ∈ imports, i.group = group ∧ i.module = module := by
  simp [modulesIn_eq, and_assoc]

theorem nodup_modulesIn (imports : List Import) (group : Int) :
    (modulesIn imports group).Nodup := by
  rw [modulesIn_eq]
  exact nodup_once _

theorem mem_namesFrom : name ∈ namesFrom imports group module ↔
    ∃ i ∈ imports, i.group = group ∧ i.module = module ∧ name ∈ i.names := by
  simp [namesFrom_eq, and_assoc]

/-- The modules of a group as they are written, each with the names that are imported from it. -/
def mergedModules (imports : List Import) (group : Int) : List (String × List String) :=
  ((modulesIn imports group).map fun module =>
    (module.plain, namesFrom imports group module)).mergeSort fun a b => decide (a.1 ≤ b.1)

theorem mem_mergedModules {entry : String × List String} : entry ∈ mergedModules imports group ↔
    ∃ module ∈ modulesIn imports group,
      (module.plain, namesFrom imports group module) = entry := by
  rw [mergedModules, (List.mergeSort_perm _ _).mem_iff, List.mem_map]

theorem exists_mergedModules {p : String → Prop} :
    (∃ m ∈ mergedModules imports group, name ∈ m.2 ∧ p m.1) ↔
      ∃ i ∈ imports, i.group = group ∧ name ∈ i.names ∧ p i.module.plain := by
  constructor
  · rintro ⟨m, there, asked, holds⟩
    obtain ⟨module, -, rfl⟩ := mem_mergedModules.mp there
    obtain ⟨i, hi, of_group, rfl, named⟩ := mem_namesFrom.mp asked
    exact ⟨i, hi, of_group, named, holds⟩
  · rintro ⟨i, hi, of_group, asked, holds⟩
    exact ⟨_, mem_mergedModules.mpr ⟨_, mem_modulesIn.mpr ⟨i, hi, of_group, rfl⟩, rfl⟩,
      mem_namesFrom.mpr ⟨i, hi, of_group, rfl, asked⟩, holds⟩

theorem forall_mergedModules {p : String → Prop} :
    (∀ m ∈ mergedModules imports group, name ∈ m.2 → p m.1) ↔
      ∀ i ∈ imports, i.group = group → name ∈ i.names → p i.module.plain := by
  simpa using not_congr (exists_mergedModules (p := fun module => ¬p module))

theorem mergedModules_pairwise (imports : List Import) (group : Int) :
    (mergedModules imports group).Pairwise (·.1 ≤ ·.1) :=
  pairwise_mergeSort_key Prod.fst (fun _ _ => decide_eq_true_iff) _

end merged

end Preferences.Source

import Mathlib.Data.List.Induction
import Mathlib.Data.List.Infix
import Mathlib.Order.Nat
import Mathlib.Tactic.SplitIfs
import Preferences.Workspace

/-! # The directories around a path

A path that is resolved has no double dots, so a walk along it only goes down, and it goes down
through all the directories around the path.  Looking for a file with a short name in one of these
directories therefore fails only where looking for one in the innermost directory does
(`find_outward`): the other paths are shorter, and their names have been passed. -/

namespace Preferences

namespace FileTree

/-- What a list of names leads to, downward from a place. -/
def descend? (place : FileTree) : List String → Option FileTree
  | [] => some place
  | name :: rest => (place.children.lookup name).bind (descend? · rest)

section walk
variable {above : List FileTree} {place child : FileTree} {name : String} {front : List String}

theorem down_cons {rest : List String} (down : ".." ∉ name :: rest) : name ≠ ".." ∧ ".." ∉ rest :=
  ⟨fun dots => down (dots ▸ List.mem_cons_self), fun dots => down (List.mem_cons_of_mem _ dots)⟩

theorem walk_found (plain : name ≠ "..") (found : place.children.lookup name = some child)
    (rest : List String) : walk above place (name :: rest) = walk (place :: above) child rest := by
  cases place with
  | file content => cases found
  | directory children => simp only [walk, if_neg plain, show children.lookup name = _ from found]

/-- A name that is missing ends the walk, whatever comes behind it. -/
theorem walk_missing (plain : name ≠ "..") (missing : place.children.lookup name = none) :
    (∀ above rest, walk above place (name :: rest) = .ok none) ∨
      maxNameBytes < name.utf8ByteSize ∧
        ∀ above rest, walk above place (name :: rest) = .error .nameTooLong := by
  cases place with
  | file content => exact Or.inl fun above rest => rfl
  | directory children =>
      simp only [walk, if_neg plain, show children.lookup name = _ from missing]
      by_cases long : maxNameBytes < name.utf8ByteSize
      · exact Or.inr ⟨long, fun above rest => if_pos long⟩
      · exact Or.inl fun above rest => if_neg long

/-- Where a path has been walked, a short name is found or not in each directory around it. -/
theorem walk_name (down : ".." ∉ front) (plain : name ≠ "..")
    (short : name.utf8ByteSize ≤ maxNameBytes) {back : List String} {end? : Option FileTree}
    (walked : walk above place (front ++ back) = .ok end?) :
    walk above place (front ++ [name]) = .ok (place.descend? (front ++ [name])) := by
  induction front generalizing above place with
  | nil =>
      cases looked : place.children.lookup name with
      | some child =>
          simp [walk_found plain looked, descend?, looked, walk]
      | none =>
          obtain ended | ⟨long, -⟩ := walk_missing plain looked
          · simp [ended, descend?, looked]
          · exact absurd short (not_le.mpr long)
  | cons first rest ih =>
      -- The long walk begins with the same name, so the short one goes on where that does.
      obtain ⟨plain, lower⟩ := down_cons down
      rw [List.cons_append] at walked ⊢
      cases looked : place.children.lookup first with
      | some child =>
          rw [walk_found plain looked] at walked ⊢
          rw [ih lower walked, descend?, looked, Option.bind_some]
      | none =>
          obtain ended | ⟨-, stopped⟩ := walk_missing plain looked
          · rw [ended, descend?, looked, Option.bind_none]
          · rw [stopped] at walked
            cases walked

/-- A walk that stops at a name that is too long stops there, whatever comes behind it. -/
theorem walk_stopped (down : ".." ∉ front) {fault : FileFault}
    (stopped : walk above place front = .error fault) (back : List String) :
    walk above place (front ++ back) = .error .nameTooLong := by
  induction front generalizing above place with
  | nil => cases stopped
  | cons first rest ih =>
      obtain ⟨plain, lower⟩ := down_cons down
      rw [List.cons_append]
      cases looked : place.children.lookup first with
      | some child =>
          rw [walk_found plain looked] at stopped ⊢
          exact ih lower stopped
      | none =>
          obtain ended | ⟨-, stops⟩ := walk_missing plain looked
          · rw [ended] at stopped
            cases stopped
          · exact stops _ _

theorem walk_of_descend? (down : ".." ∉ front) (there : place.descend? front = some child) :
    walk above place front = .ok (some child) := by
  induction front generalizing above place with
  | nil => exact congrArg _ there
  | cons first rest ih =>
      obtain ⟨next, looked, there⟩ := Option.bind_eq_some_iff.mp there
      obtain ⟨plain, lower⟩ := down_cons down
      rw [walk_found plain looked]
      exact ih lower there

end walk

end FileTree

/-! ### Paths of files in directories -/

theorem utf8ByteSize_intercalate_cons (name : String) {names : List String} (some : names ≠ []) :
    ("/".intercalate (name :: names)).utf8ByteSize =
      name.utf8ByteSize + 1 + ("/".intercalate names).utf8ByteSize := by
  obtain ⟨next, rest, rfl⟩ := List.exists_cons_of_ne_nil some
  rw [String.intercalate_cons_cons, String.utf8ByteSize_append, String.utf8ByteSize_append]
  rfl

theorem utf8ByteSize_le_intercalate (name : String) (names : List String) :
    name.utf8ByteSize ≤ ("/".intercalate (names ++ [name])).utf8ByteSize := by
  induction names with
  | nil => exact le_of_eq rfl
  | cons first rest ih =>
      rw [List.cons_append, utf8ByteSize_intercalate_cons _ (by simp)]
      omega

theorem utf8ByteSize_intercalate_le (front back : List String) {short long : String}
    (less : short.utf8ByteSize ≤ long.utf8ByteSize) :
    ("/".intercalate (front ++ [short])).utf8ByteSize ≤
      ("/".intercalate (front ++ (back ++ [long]))).utf8ByteSize := by
  induction front with
  | nil => exact less.trans (utf8ByteSize_le_intercalate long back)
  | cons first rest ih =>
      simp only [List.cons_append]
      rw [utf8ByteSize_intercalate_cons _ (by simp), utf8ByteSize_intercalate_cons _ (by simp)]
      omega

namespace Path

theorem not_mem_collapse (names : List String) : ".." ∉ collapse names := by
  unfold collapse
  induction names using List.reverseRecOn with
  | nil => exact List.not_mem_nil
  | append_singleton names name ih =>
      rw [List.foldl_append, List.foldl_cons, List.foldl_nil]
      split_ifs with dots
      · exact fun member => ih (List.mem_of_mem_dropLast member)
      · rw [List.mem_append, List.mem_singleton]
        rintro (member | rfl)
        · exact ih member
        · exact dots (beq_self_eq_true "..")

theorem mem_outward {d e : Path} :
    e ∈ d.outward ↔ e.root = d.root ∧ ∃ back, d.names = e.names ++ back := by
  unfold outward
  rw [List.mem_map]
  constructor
  · rintro ⟨n, -, rfl⟩
    exact ⟨rfl, _, (List.take_append_drop (d.names.length - n) d.names).symm⟩
  · rintro ⟨root, back, split⟩
    refine ⟨back.length, ?_, ?_⟩
    · rw [List.mem_range, split, List.length_append]
      omega
    · rw [split, List.length_append, Nat.add_sub_cancel, List.take_left, ← root]

theorem exists_outward_eq_cons (d : Path) : ∃ rest, d.outward = d :: rest := by
  rw [outward, List.range_succ_eq_map, List.map_cons, Nat.sub_zero, List.take_length]
  exact ⟨_, rfl⟩

theorem mem_outward_self (d : Path) : d ∈ d.outward :=
  mem_outward.mpr ⟨rfl, [], (List.append_nil _).symm⟩

theorem hasNull_child_of_mem_outward {d e : Path} {name : String} (outer : e ∈ d.outward)
    (unbroken : d.hasNull = false) (plain : name.toList.contains '\x00' = false) :
    (e.child name).hasNull = false := by
  obtain ⟨-, back, split⟩ := mem_outward.mp outer
  rw [hasNull, split, List.any_append, Bool.or_eq_false_iff] at unbroken
  rw [hasNull, child, List.any_append, unbroken.1, List.any_cons, List.any_nil, plain]
  rfl

end Path

namespace Workspace

/-- A file of this name can be looked for in the directory: its path is not too long, and the names
before it are not either. -/
structure InReach (w : Workspace) (d : Path) (name : String) : Prop where
  short : (d.child name).text.utf8ByteSize < maxPathBytes
  walked : ∃ end?, FileTree.walk [] w.root d.names = .ok end?

section reach
variable {w : Workspace} {start d e : Path} {name other : String}

theorem resolve_ok (resolved : w.resolve start = .ok d) : d.root = "/" ∧ ".." ∉ d.names := by
  unfold resolve at resolved
  split_ifs at resolved
  obtain rfl := Except.ok.inj resolved
  exact ⟨rfl, Path.not_mem_collapse _⟩

theorem inReach_iff (down : ".." ∉ d.names) {place : FileTree}
    (there : w.root.descend? d.names = some place) :
    w.InReach d name ↔ (d.child name).text.utf8ByteSize < maxPathBytes :=
  ⟨InReach.short, fun short => ⟨short, _, FileTree.walk_of_descend? down there⟩⟩

theorem find_outOfReach (root : d.root = "/") (down : ".." ∉ d.names)
    (unbroken : d.hasNull = false) (plain : name.toList.contains '\x00' = false)
    (far : ¬w.InReach d name) :
    w.find (d.child name) = .error (.unreadable .nameTooLong) := by
  have absolute : (d.child name).isAbsolute = true := by
    simp [Path.isAbsolute, Path.child, root]
  rw [find, Path.hasNull_child_of_mem_outward d.mem_outward_self unbroken plain,
    if_neg Bool.false_ne_true]
  by_cases short : (d.child name).text.utf8ByteSize < maxPathBytes
  · rw [if_neg (not_le.mpr short), absolute]
    cases walked : FileTree.walk [] w.root d.names with
    | ok end? => exact absurd ⟨short, end?, walked⟩ far
    | error fault =>
        have stopped := FileTree.walk_stopped down walked [name]
        simp only [Path.child, if_true, stopped]
        rfl
  · rw [if_pos (not_lt.mp short)]

/-- In the directories around, files whose names are no longer are found where they are. -/
theorem find_outward (root : d.root = "/") (down : ".." ∉ d.names) (reach : w.InReach d name)
    (unbroken : d.hasNull = false) (outer : e ∈ d.outward)
    (plain : other ≠ ".." ∧ other.toList.contains '\x00' = false)
    (short : other.utf8ByteSize ≤ name.utf8ByteSize) (fits : other.utf8ByteSize ≤ maxNameBytes) :
    w.find (e.child other) = .ok (w.root.descend? (e.child other).names) := by
  obtain ⟨same, back, split⟩ := Path.mem_outward.mp outer
  have absolute : (e.child other).isAbsolute = true := by
    simp [Path.isAbsolute, Path.child, same, root]
  have less : (e.child other).text.utf8ByteSize < maxPathBytes := by
    refine lt_of_le_of_lt ?_ reach.short
    simpa [Path.text, Path.child, same, root, split]
      using utf8ByteSize_intercalate_le e.names back short
  obtain ⟨end?, walked⟩ := reach.walked
  rw [split] at walked
  have found := FileTree.walk_name (fun dots => down (split ▸ List.mem_append_left _ dots))
    plain.1 fits walked
  rw [find, Path.hasNull_child_of_mem_outward outer unbroken plain.2, if_neg Bool.false_ne_true,
    if_neg (not_le.mpr less), absolute, if_pos rfl]
  simp only [Path.child, found]
  rfl

end reach

end Workspace

end Preferences

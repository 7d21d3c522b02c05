import Mathlib.Tactic.FinCases
import Preferences.Proofs.Number.Numerals
import Preferences.Proofs.Settings.Reading
import Preferences.Proofs.Workspace.Directories

/-! # The nearest file with settings

The search for settings goes from a directory outward and ends at the first one that decides it
(`Decides`): by a file of its own, by the settings in a document that it shares, or by a document
that cannot be read.  `find_nearest` says so exactly, for every directory whose path is not too
long.  It follows that nothing beyond the deciding directory matters, nor does a shared document
that has a file of settings beside it. -/

namespace Preferences.Settings

/-- What stands in a directory in the place of a file that only holds settings. -/
def ownIn (root : FileTree) (e : Path) : Option FileTree := root.descend? (e.child fileName).names

/-- What stands in a directory in the place of a file that may hold settings. -/
def sharedIn (root : FileTree) (e : Path) : Option FileTree :=
  root.descend? (e.child sharedFileName).names

/-- The document has a table `tool` with an entry `preferencer`. -/
def HasSettings (document : Value) : Prop := ∃ tool settings,
  document.get? "tool" = .ok (some (.table tool)) ∧ Table.get? tool "preferencer" = some settings

/-- There is no file of settings in the directory, and the shared one reads like this. -/
structure SharedReads (root : FileTree) (e : Path) (outcome : Except Toml.Fault Value) : Prop where
  alone : ownIn root e = none
  reads : ∃ text : String, sharedIn root e = some (.file text.toUTF8) ∧
    Toml.read text.toList = outcome

/-- The failure that a fault in a document at this path is. -/
def failureOf (path : Path) : Toml.Fault → Failure
  | .malformed => .setting .malformedDocument (some path)
  | .numberTooLong => .unreadable .numberTooLong
  | .tooDeep => .unreadable .tooDeep

/-- The directory ends the search, with its file or with a failure. -/
inductive Decides (root : FileTree) (e : Path) : Except Failure Path → Prop
  | own {place : FileTree} (there : ownIn root e = some place) :
      Decides root e (.ok (e.child fileName))
  | shared {document : Value} (reads : SharedReads root e (.ok document))
      (settings : HasSettings document) : Decides root e (.ok (e.child sharedFileName))
  | broken {fault : Toml.Fault} (reads : SharedReads root e (.error fault)) :
      Decides root e (.error (failureOf (e.child sharedFileName) fault))

/-- The search that starts in a directory gets to this one. -/
def Reached (root : FileTree) (d e : Path) : Prop := ∃ before after,
  d.outward = before ++ e :: after ∧ ∀ b ∈ before, ∀ result, ¬Decides root b result

/-- The shared files around a directory are texts, and where one is a document with an entry `tool`,
this is a table. -/
structure Tidy (root : FileTree) (d : Path) : Prop where
  texts : ∀ e ∈ d.outward, ∀ place, sharedIn root e = some place →
    ∃ text : String, place = .file text.toUTF8
  tables : ∀ e ∈ d.outward, ∀ document tool, SharedReads root e (.ok document) →
    document.get? "tool" = .ok (some tool) → ∃ entries, tool = .table entries

/-- The same file of settings stands in the directory of both trees, or none does and the same
shared file. -/
def SameIn (root root' : FileTree) (e : Path) : Prop :=
  (∃ place place', ownIn root e = some place ∧ ownIn root' e = some place') ∨
    ownIn root e = none ∧ ownIn root' e = none ∧ sharedIn root e = sharedIn root' e

/-- The two files of a directory are found where they are. -/
structure Looks (w : Workspace) (e : Path) : Prop where
  own : w.find (e.child fileName) = .ok (ownIn w.root e)
  shared : w.find (e.child sharedFileName) = .ok (sharedIn w.root e)

/-! ### One directory -/

section directory
variable {w : Workspace} {start d e : Path} {outcome : Except Toml.Fault Value} {document : Value}

theorem looks_of_inReach (resolved : w.resolve start = .ok d) (unbroken : d.hasNull = false)
    (reach : w.InReach d fileName) (outer : e ∈ d.outward) : Looks w e := by
  obtain ⟨root, down⟩ := Workspace.resolve_ok resolved
  exact ⟨Workspace.find_outward root down reach unbroken outer (by decide) (by decide) (by decide),
    Workspace.find_outward root down reach unbroken outer (by decide) (by decide) (by decide)⟩

theorem holds_eq {p : Path} {found : Option FileTree} (looked : w.find p = .ok found) :
    w.holds p = .ok found.isSome := by
  rw [Workspace.holds, looked]
  rfl

theorem fileIn_own (looks : Looks w e) {place : FileTree} (there : ownIn w.root e = some place) :
    fileIn w e = .ok (some (e.child fileName)) := by
  rw [fileIn, holds_eq looks.own, there]
  rfl

theorem fileIn_bare (looks : Looks w e) (alone : ownIn w.root e = none)
    (bare : sharedIn w.root e = none) : fileIn w e = .ok none := by
  rw [fileIn, holds_eq looks.own, alone, holds_eq looks.shared, bare]
  rfl

theorem document_of_sharedReads (looks : Looks w e) (read : SharedReads w.root e outcome) :
    Settings.document w (e.child sharedFileName) =
      outcome.mapError (failureOf (e.child sharedFileName)) := by
  obtain ⟨text, there, rfl⟩ := read.reads
  have decoded : String.fromUTF8? text.toUTF8 = some text := dif_pos text.isValidUTF8
  rw [Settings.document, Workspace.document, looks.shared, there, ok_bind]
  simp only [decoded]
  rcases Toml.read text.toList with (_ | _ | _) | document <;> rfl

theorem fileIn_shared (looks : Looks w e) (read : SharedReads w.root e outcome) :
    fileIn w e = do
      let document ← outcome.mapError (failureOf (e.child sharedFileName))
      if ← (← toolTable document).contains "preferencer" then
        return some (e.child sharedFileName)
      else return none := by
  obtain ⟨text, there, -⟩ := read.reads
  rw [fileIn, holds_eq looks.own, read.alone, holds_eq looks.shared, there,
    document_of_sharedReads looks read]
  rfl

theorem isTable_of_read {s : List Char} (read : Toml.read s = .ok document) :
    ∃ entries, document = .table entries := by
  obtain ⟨entries, -, same⟩ := bind_eq_ok_iff.mp read
  exact ⟨_, (Except.ok.inj same).symm⟩

theorem contains_toolTable {entries : Table}
    (tables : ∀ tool, Table.get? entries "tool" = some tool → ∃ entries, tool = .table entries) :
    ∃ tool has, toolTable (.table entries) = .ok tool ∧ tool.contains "preferencer" = .ok has ∧
      (has = true ↔ HasSettings (.table entries)) := by
  have under : toolTable (.table entries) = .ok ((Table.get? entries "tool").getD (.table [])) :=
    rfl
  cases found : Table.get? entries "tool" with
  | none =>
      rw [found] at under
      refine ⟨_, false, under, rfl, by simp [HasSettings, Value.get?, found]⟩
  | some tool =>
      obtain ⟨inner, rfl⟩ := tables tool found
      rw [found] at under
      refine ⟨_, _, under, rfl, ?_⟩
      rw [Table.holds_eq_isSome_get?, Option.isSome_iff_exists]
      simp [HasSettings, Value.get?, found]

theorem fileIn_document (looks : Looks w e) (reads : SharedReads w.root e (.ok document))
    (tables : ∀ tool, document.get? "tool" = .ok (some tool) → ∃ entries, tool = .table entries) :
    (HasSettings document → fileIn w e = .ok (some (e.child sharedFileName))) ∧
      (¬HasSettings document → fileIn w e = .ok none) := by
  obtain ⟨text, -, read⟩ := reads.reads
  obtain ⟨entries, rfl⟩ := isTable_of_read read
  obtain ⟨tool, has, inside, contains, told⟩ :=
    contains_toolTable fun tool found => tables tool (congrArg Except.ok found)
  have file : fileIn w e = .ok (if has = true then some (e.child sharedFileName) else none) := by
    rw [fileIn_shared looks reads]
    simp only [Except.mapError, ok_bind, inside, contains, lift_ok]
    cases has <;> rfl
  rw [file, ← told]
  exact ⟨fun settings => by rw [if_pos settings], fun bare => by rw [if_neg bare]⟩

theorem fileIn_of_decides (looks : Looks w e) {result : Except Failure Path}
    (decides : Decides w.root e result) : fileIn w e = result.map some := by
  cases decides with
  | own there => exact fileIn_own looks there
  | broken reads => exact fileIn_shared looks reads
  | shared reads settings =>
      obtain ⟨inner, under, found, -⟩ := id settings
      refine (fileIn_document looks reads fun tool there => ⟨inner, ?_⟩).1 settings
      exact Option.some.inj (Except.ok.inj (there.symm.trans found))

theorem fileIn_of_silent (tidy : Tidy w.root d) (looks : Looks w e) (outer : e ∈ d.outward)
    (silent : ∀ result, ¬Decides w.root e result) : fileIn w e = .ok none := by
  cases own : ownIn w.root e with
  | some place => exact absurd (.own own) (silent _)
  | none =>
      cases there : sharedIn w.root e with
      | none => exact fileIn_bare looks own there
      | some place =>
          obtain ⟨text, rfl⟩ := tidy.texts e outer place there
          have reads : SharedReads w.root e (Toml.read text.toList) := ⟨own, text, there, rfl⟩
          cases read : Toml.read text.toList with
          | error fault => exact absurd (.broken (read ▸ reads)) (silent _)
          | ok document =>
              rw [read] at reads
              have tables := fun tool => tidy.tables e outer document tool reads
              have bare : ¬HasSettings document := fun settings => silent _ (.shared reads settings)
              exact (fileIn_document looks reads tables).2 bare

theorem malformed_of_decides {root : FileTree} {path : Option Path}
    (decides : Decides root e (.error (.setting .malformedDocument path))) :
    SharedReads root e (.error .malformed) := by
  generalize told : (Except.error (Failure.setting .malformedDocument path) : Except Failure Path) =
    result at decides
  cases decides with
  | own | shared => cases told
  | @broken fault reads =>
      cases fault with
      | malformed => exact reads
      | _ => cases told

/-- What stands beside a file of settings does not matter. -/
theorem fileIn_congr {w' : Workspace} (looks : Looks w e) (looks' : Looks w' e)
    (same : SameIn w.root w'.root e) : fileIn w' e = fileIn w e := by
  obtain ⟨place, place', there, there'⟩ | ⟨alone, alone', shared⟩ := same
  · rw [fileIn_own looks there, fileIn_own looks' there']
  · have document : Settings.document w' (e.child sharedFileName) =
        Settings.document w (e.child sharedFileName) := by
      unfold Settings.document Workspace.document
      rw [looks.shared, looks'.shared, shared]
    rw [fileIn, fileIn, holds_eq looks.own, holds_eq looks'.own, alone, alone',
      holds_eq looks.shared, holds_eq looks'.shared, shared, document]

end directory

/-! ### The way outward -/

section outward
variable {w w' : Workspace} {start d e : Path} {before rest : List Path}

theorem findIn_silent (silent : ∀ b ∈ before, fileIn w b = .ok none) :
    findIn w (before ++ rest) = findIn w rest := by
  induction before with
  | nil => rfl
  | cons first before ih =>
      obtain ⟨here, silent⟩ := List.forall_mem_cons.mp silent
      rw [List.cons_append, findIn, here]
      exact ih silent

theorem findIn_decided {result : Except Failure Path} (decided : fileIn w e = result.map some) :
    findIn w (e :: rest) = result.map some := by
  rw [findIn, decided]
  cases result <;> rfl

theorem findIn_congr {directories : List Path}
    (same : ∀ before e after, directories = before ++ e :: after →
      (∀ b ∈ before, fileIn w b = .ok none) → fileIn w' e = fileIn w e) :
    findIn w' directories = findIn w directories := by
  induction directories with
  | nil => rfl
  | cons first rest ih =>
      rw [findIn, findIn, same [] first rest rfl (List.forall_mem_nil _)]
      rcases here : fileIn w first with failure | _ | file
      · rfl
      · refine ih fun before e after split silent => ?_
        exact same (first :: before) e after (congrArg _ split)
          (List.forall_mem_cons.mpr ⟨here, silent⟩)
      · rfl

/-- The directories are silent, or there is a first one that is not. -/
theorem exists_first (root : FileTree) (directories : List Path) :
    (∀ e ∈ directories, ∀ result, ¬Decides root e result) ∨
      ∃ before e after result, directories = before ++ e :: after ∧ Decides root e result ∧
        ∀ b ∈ before, ∀ result, ¬Decides root b result := by
  induction directories with
  | nil => exact Or.inl (List.forall_mem_nil _)
  | cons first rest ih =>
      by_cases here : ∃ result, Decides root first result
      · obtain ⟨result, decides⟩ := here
        exact Or.inr ⟨[], first, rest, result, rfl, decides, List.forall_mem_nil _⟩
      · have silent := not_exists.mp here
        rcases ih with all | ⟨before, e, after, result, rfl, decides, earlier⟩
        · exact Or.inl (List.forall_mem_cons.mpr ⟨silent, all⟩)
        · exact Or.inr ⟨first :: before, e, after, result, rfl, decides,
            List.forall_mem_cons.mpr ⟨silent, earlier⟩⟩

theorem mem_of_reached (reached : Reached w.root d e) : e ∈ d.outward := by
  obtain ⟨before, after, split, -⟩ := reached
  rw [split]
  exact List.mem_append_right before List.mem_cons_self

theorem map_some_ne_none (result : Except Failure Path) : result.map some ≠ .ok none := by
  cases result <;> nofun

theorem map_some_inj {other : Except Failure Path} (same : result.map some = other.map some) :
    result = other := by
  cases result <;> cases other <;> cases same <;> rfl

theorem find_eq_findIn (resolved : w.resolve start = .ok d) :
    find w start = findIn w d.outward := by
  rw [find, resolved]
  rfl

variable (resolved : w.resolve start = .ok d) (looks : ∀ e ∈ d.outward, Looks w e)
  (tidy : Tidy w.root d)
include resolved looks tidy

theorem find_of_reached (reached : Reached w.root d e) {result : Except Failure Path}
    (decides : Decides w.root e result) : find w start = result.map some := by
  have outer := mem_of_reached reached
  obtain ⟨before, after, split, silent⟩ := reached
  have nothing : ∀ b ∈ before, fileIn w b = .ok none := by
    intro b earlier
    have around : b ∈ d.outward := split ▸ List.mem_append_left _ earlier
    exact fileIn_of_silent tidy (looks b around) around (silent b earlier)
  rw [find_eq_findIn resolved, split, findIn_silent nothing]
  exact findIn_decided (fileIn_of_decides (looks e outer) decides)

theorem find_of_silent (silent : ∀ e ∈ d.outward, ∀ result, ¬Decides w.root e result) :
    find w start = .ok none := by
  have nothing : findIn w (d.outward ++ []) = findIn w [] := findIn_silent
    fun e outer => fileIn_of_silent tidy (looks e outer) outer (silent e outer)
  rw [List.append_nil] at nothing
  exact (find_eq_findIn resolved).trans nothing

theorem find_eq_map_some_iff (result : Except Failure Path) : find w start = result.map some ↔
    ∃ e, Reached w.root d e ∧ Decides w.root e result := by
  constructor
  · intro found
    obtain silent | ⟨before, e, after, other, split, decides, silent⟩ :=
      exists_first w.root d.outward
    · have none := find_of_silent resolved looks tidy silent
      exact absurd (found.symm.trans none) (map_some_ne_none result)
    · have reached : Reached w.root d e := ⟨before, after, split, silent⟩
      have same := found.symm.trans (find_of_reached resolved looks tidy reached decides)
      exact ⟨e, reached, map_some_inj same ▸ decides⟩
  · rintro ⟨e, reached, decides⟩
    exact find_of_reached resolved looks tidy reached decides

theorem find_eq_none_iff : find w start = .ok none ↔
    ∀ e ∈ d.outward, ∀ result, ¬Decides w.root e result := by
  refine ⟨fun found => ?_, find_of_silent resolved looks tidy⟩
  obtain silent | ⟨before, e, after, result, split, decides, silent⟩ :=
    exists_first w.root d.outward
  · exact silent
  · have decided := find_of_reached resolved looks tidy ⟨before, after, split, silent⟩ decides
    exact absurd (decided.symm.trans found) (map_some_ne_none result)

/-- The user is told of a document that is not well-formed if it is met before anything else that
ends the search, but for other such documents. -/
theorem find_malformed_iff :
    (∃ path, find w start = .error (.setting .malformedDocument path)) ↔
      ∃ before e after, d.outward = before ++ e :: after ∧
        SharedReads w.root e (.error .malformed) ∧
        ∀ b ∈ before, (∀ file, ¬Decides w.root b (.ok file)) ∧
          ∀ fault, SharedReads w.root b (.error fault) → fault = .malformed := by
  constructor
  · rintro ⟨path, failed⟩
    obtain ⟨e, ⟨before, after, split, silent⟩, decides⟩ :=
      (find_eq_map_some_iff resolved looks tidy (.error _)).mp failed
    exact ⟨before, e, after, split, malformed_of_decides decides, fun b earlier =>
      ⟨fun file => silent b earlier _,
        fun fault reads => absurd (.broken reads) (silent b earlier _)⟩⟩
  · rintro ⟨before, e, after, split, malformed, earlier⟩
    -- The first directory that decides is this one or an earlier one.
    obtain silent | ⟨front, first, back, result, within, decides, silent⟩ :=
      exists_first w.root (before ++ [e])
    · exact absurd (.broken malformed) (silent e (List.mem_append_right _ List.mem_cons_self) _)
    · have around : d.outward = front ++ first :: (back ++ after) := by
        rw [split, List.append_cons, within, List.append_assoc, List.cons_append]
      have reached : Reached w.root d first := ⟨front, _, around, silent⟩
      have decided := find_of_reached resolved looks tidy reached decides
      have member : first ∈ before ++ [e] :=
        within ▸ List.mem_append_right _ List.mem_cons_self
      rcases List.mem_append.mp member with before | here
      · cases decides with
        | own there => exact absurd (.own there) ((earlier first before).1 _)
        | shared reads settings =>
            exact absurd (.shared reads settings) ((earlier first before).1 _)
        | broken reads =>
            obtain rfl := (earlier first before).2 _ reads
            exact ⟨_, decided⟩
      · obtain rfl := List.mem_singleton.mp here
        exact ⟨_, find_of_reached resolved looks tidy reached (.broken malformed)⟩

omit tidy in
/-- Only the directories that the search gets to matter. -/
theorem find_congr (resolved' : w'.resolve start = .ok d) (looks' : ∀ e ∈ d.outward, Looks w' e)
    (same : ∀ e, Reached w.root d e → SameIn w.root w'.root e) : find w' start = find w start := by
  rw [find_eq_findIn resolved, find_eq_findIn resolved']
  refine findIn_congr fun before e after split silent => ?_
  -- Where the earlier directories have no file, none of them decides.
  have reached : Reached w.root d e := by
    refine ⟨before, after, split, fun b earlier result decides => ?_⟩
    have decided := fileIn_of_decides (looks b (split ▸ List.mem_append_left _ earlier)) decides
    exact map_some_ne_none result (decided.symm.trans (silent b earlier))
  have outer := mem_of_reached reached
  exact fileIn_congr (looks e outer) (looks' e outer) (same e reached)

end outward

theorem find_of_outOfReach {w : Workspace} {start d : Path} (resolved : w.resolve start = .ok d)
    (unbroken : d.hasNull = false) (far : ¬w.InReach d fileName) :
    find w start = .error (.unreadable .nameTooLong) := by
  obtain ⟨root, down⟩ := Workspace.resolve_ok resolved
  have stopped : fileIn w d = Except.map some (.error (.unreadable .nameTooLong)) := by
    rw [fileIn, Workspace.holds,
      Workspace.find_outOfReach root down unbroken (by decide) far]
    rfl
  obtain ⟨rest, split⟩ := d.exists_outward_eq_cons
  rw [find_eq_findIn resolved, split]
  exact findIn_decided stopped

/-- A search from a directory outward ends at the first directory that decides it, and with what
this one has: its file of settings, a shared document with settings, or a document that cannot be
read.  If none decides, there is no file.  The user is told of a document that is not well-formed
exactly if there is one, without a file of settings beside it, before any file that would be found
and before any document at which the reader gives up.  In another tree the search ends in the same
way if the directories that it gets to are the same, a shared document beside a file of settings
apart.  All of this holds where the path of the file of settings in the first directory is not too
long; otherwise the search fails for that. -/
theorem find_nearest {w : Workspace} {start d : Path} (resolved : w.resolve start = .ok d)
    (unbroken : d.hasNull = false) (tidy : Tidy w.root d) :
    (∀ place, w.root.descend? d.names = some place →
      (w.InReach d fileName ↔ (d.child fileName).text.utf8ByteSize < maxPathBytes)) ∧
    (¬w.InReach d fileName → find w start = .error (.unreadable .nameTooLong)) ∧
    (w.InReach d fileName →
      (∀ result, find w start = result.map some ↔
        ∃ e, Reached w.root d e ∧ Decides w.root e result) ∧
      (find w start = .ok none ↔ ∀ e ∈ d.outward, ∀ result, ¬Decides w.root e result) ∧
      ((∃ path, find w start = .error (.setting .malformedDocument path)) ↔
        ∃ before e after, d.outward = before ++ e :: after ∧
          SharedReads w.root e (.error .malformed) ∧
          ∀ b ∈ before, (∀ file, ¬Decides w.root b (.ok file)) ∧
            ∀ fault, SharedReads w.root b (.error fault) → fault = .malformed) ∧
      ∀ w' : Workspace, w'.directory = w.directory → w'.InReach d fileName →
        (∀ e, Reached w.root d e → SameIn w.root w'.root e) → find w' start = find w start) := by
  refine ⟨fun place there => Workspace.inReach_iff (Workspace.resolve_ok resolved).2 there,
    find_of_outOfReach resolved unbroken, fun reach => ?_⟩
  have looks : ∀ e ∈ d.outward, Looks w e :=
    fun e outer => looks_of_inReach resolved unbroken reach outer
  refine ⟨find_eq_map_some_iff resolved looks tidy, find_eq_none_iff resolved looks tidy,
    find_malformed_iff resolved looks tidy, ?_⟩
  intro w' here reach' same
  have resolved' : w'.resolve start = .ok d := by
    rw [Workspace.resolve, here]
    exact resolved
  exact find_congr resolved looks resolved'
    (fun e outer => looks_of_inReach resolved' unbroken reach' outer) same

/-! ### Some trees -/

/-- A project whose directory `a` has a file of settings beside a document that is not well-formed;
there is another such document around it, and one without settings within. -/
def project : FileTree :=
  .directory [("pyproject.toml", .file "[".toUTF8), ("a", .directory [
    ("preferencer.toml", .file "".toUTF8), ("pyproject.toml", .file "[".toUTF8),
    ("b", .directory [("pyproject.toml", .file "[tool]\n".toUTF8)])])]

theorem SharedReads.of_file {root : FileTree} {e : Path} {outcome : Except Toml.Fault Value}
    (reads : SharedReads root e outcome) {text : String}
    (there : sharedIn root e = some (.file text.toUTF8)) : Toml.read text.toList = outcome := by
  obtain ⟨other, found, read⟩ := reads.reads
  have same := FileTree.file.inj (Option.some.inj (found.symm.trans there))
  rwa [String.toByteArray_inj.mp same] at read

theorem read_empty_tool : Toml.read "[tool]\n".toList = .ok (.table [("tool", .table [])]) := by
  decide +kernel

theorem read_bracket : Toml.read "[".toList = .error .malformed := by
  decide +kernel

theorem get?_empty_tool :
    (Value.table [("tool", .table [])]).get? "tool" = .ok (some (.table [])) := by
  decide +kernel

theorem outward_project : Path.outward ⟨"/", ["a", "b"]⟩ =
    [⟨"/", ["a", "b"]⟩, ⟨"/", ["a"]⟩, ⟨"/", []⟩] := by
  decide

theorem project_silent (result : Except Failure Path) :
    ¬Decides project ⟨"/", ["a", "b"]⟩ result := by
  rintro (⟨there⟩ | ⟨reads, settings⟩ | ⟨reads⟩)
  · cases there
  · obtain rfl := Except.ok.inj (read_empty_tool.symm.trans (reads.of_file rfl))
    obtain ⟨tool, settings, found, there⟩ := settings
    have same := Except.ok.inj (get?_empty_tool.symm.trans found)
    obtain rfl := Value.table.inj (Option.some.inj same)
    cases there
  · cases read_empty_tool.symm.trans (reads.of_file rfl)

theorem tidy_project : Tidy project ⟨"/", ["a", "b"]⟩ := by
  constructor
  · rw [outward_project]
    intro e around place there
    fin_cases around
    · exact ⟨"[tool]\n", (Option.some.inj there).symm⟩
    · exact ⟨"[", (Option.some.inj there).symm⟩
    · exact ⟨"[", (Option.some.inj there).symm⟩
  · rw [outward_project]
    intro e around document tool reads found
    fin_cases around
    · obtain rfl := Except.ok.inj (read_empty_tool.symm.trans (reads.of_file rfl))
      exact ⟨[], (Option.some.inj (Except.ok.inj (get?_empty_tool.symm.trans found))).symm⟩
    · cases read_bracket.symm.trans (reads.of_file rfl)
    · cases read_bracket.symm.trans (reads.of_file rfl)

/-- From within, the file of settings is found, though there are malformed documents beside it and
around it. -/
theorem find_nearest_project :
    let w : Workspace := ⟨project, ⟨"/", ["a"]⟩⟩
    w.resolve ⟨"", ["b"]⟩ = .ok ⟨"/", ["a", "b"]⟩ ∧
    Tidy project ⟨"/", ["a", "b"]⟩ ∧ w.InReach ⟨"/", ["a", "b"]⟩ fileName ∧
    find w ⟨"", ["b"]⟩ = .ok (some ⟨"/", ["a", "preferencer.toml"]⟩) := by
  intro w
  have resolved : w.resolve ⟨"", ["b"]⟩ = .ok ⟨"/", ["a", "b"]⟩ := rfl
  obtain ⟨short, -, ends⟩ := find_nearest resolved rfl tidy_project
  have reach := (short _ rfl).mpr (by decide +kernel)
  have reached : Reached project ⟨"/", ["a", "b"]⟩ ⟨"/", ["a"]⟩ :=
    ⟨[⟨"/", ["a", "b"]⟩], _, outward_project, List.forall_mem_singleton.mpr project_silent⟩
  exact ⟨resolved, tidy_project, reach, ((ends reach).1 (.ok _)).mpr ⟨_, reached, .own rfl⟩⟩

end Preferences.Settings

namespace Preferences.Toml

open Numeral (isAsciiDigit maxDigits)

/-! ### A number that is too long -/

theorem plainLines_eq_self {s : List Char} (plain : '\r' ∉ s) : plainLines s = s := by
  induction s with
  | nil => rfl
  | cons c rest ih =>
      obtain ⟨first, plain⟩ := not_or.mp (List.mem_cons.not.mp plain)
      rw [plainLines, ih plain]
      exact fun _ same => absurd same.symm first

/-- A number that is written with so many ones, on a line. -/
def ones (n : Nat) : List Char := List.replicate n '1' ++ ['\n']

theorem readScalar_ones {n : Nat} (long : maxDigits < n + 5) :
    readScalar (ones (n + 5)) = .error .numberTooLong := by
  have whole : IsWhole (List.replicate (n + 5) '1') :=
    ⟨fun c member => List.eq_of_mem_replicate member ▸ rfl, Or.inr ⟨'1', _, rfl, by decide⟩⟩
  have ends : ∀ c ∈ ['\n'].head?, isAsciiDigit c = false ∧ c ≠ '_' := by
    rintro c ⟨rfl⟩
    decide
  have unsigned := whole.splitSign false ['\n']
  rw [sign, if_neg Bool.false_ne_true, List.nil_append] at unsigned
  have decimal : readDecimal? (ones (n + 5)) = some (.error .numberTooLong, ['\n']) := by
    simp [ones, readDecimal?, unsigned, whole.read ends, readFraction?, readPower?, long]
  have date : readDateTime? (ones (n + 5)) = none := rfl
  have time : readTime? (ones (n + 5)) = none := rfl
  have based : readPrefixed? (ones (n + 5)) = none := rfl
  have flag : readFlag? (ones (n + 5)) = none := rfl
  simp only [readScalar, flag, date, time, based, decimal]
  rfl

theorem read_ones {n : Nat} (long : maxDigits < n) :
    read ("x = ".toList ++ ones n) = .error .numberTooLong := by
  obtain ⟨n, rfl⟩ : ∃ fewer, n = fewer + 5 := by
    rw [maxDigits] at long
    exact ⟨n - 5, by omega⟩
  have plain : plainLines ("x = ".toList ++ ones (n + 5)) = "x = ".toList ++ ones (n + 5) :=
    plainLines_eq_self (by simp [ones])
  have value : readValue (ones (n + 5)) = .error .numberTooLong := readScalar_ones long
  have statement : ∃ more, readStatement {} ("x = ".toList ++ ones (n + 5)) =
      readValue (ones (n + 5)) >>= more := ⟨_, rfl⟩
  have line : ∃ more, readLine {} ("x = ".toList ++ ones (n + 5)) =
      readStatement {} ("x = ".toList ++ ones (n + 5)) >>= more := ⟨_, rfl⟩
  obtain ⟨_, statement⟩ := statement
  obtain ⟨_, line⟩ := line
  rw [statement, value] at line
  rw [read, plain]
  simp only [readLinesWithin, line]
  rfl
end Preferences.Toml

namespace Preferences.Settings

/-- A document with a number of 4301 digits. -/
def numberedText : String := String.ofList ("x = ".toList ++ Toml.ones 4301)

def numbered : FileTree := .directory [("pyproject.toml", .file numberedText.toUTF8)]

def longNames : List String := List.replicate 16 (String.ofList (List.replicate maxNameBytes 'a'))

/-- Directories of these names, one within the other. -/
def nest (names : List String) : FileTree :=
  names.foldr (fun name tree => .directory [(name, tree)]) (.directory [])

theorem descend?_nest (names : List String) :
    (nest names).descend? names = some (.directory []) := by
  induction names with
  | nil => rfl
  | cons name rest ih =>
      rw [FileTree.descend?]
      show (List.lookup name [(name, nest rest)]).bind _ = _
      rw [List.lookup_cons_self]
      exact ih

theorem read_numberedText : Toml.read numberedText.toList = .error .numberTooLong := by
  have text : numberedText.toList = "x = ".toList ++ Toml.ones 4301 := String.toList_ofList
  exact (congrArg Toml.read text).trans (Toml.read_ones (by decide))

theorem numbered_reads : SharedReads numbered ⟨"/", []⟩ (.error .numberTooLong) :=
  ⟨rfl, numberedText, rfl, read_numberedText⟩

theorem eq_of_numbered {outcome : Except Toml.Fault Value}
    (reads : SharedReads numbered ⟨"/", []⟩ outcome) : outcome = .error .numberTooLong :=
  (reads.of_file rfl).symm.trans read_numberedText

theorem tidy_numbered : Tidy numbered ⟨"/", []⟩ := by
  have around : Path.outward ⟨"/", []⟩ = [⟨"/", []⟩] := rfl
  constructor <;> rw [around] <;> intro e member
  · obtain rfl := List.mem_singleton.mp member
    exact fun place there => ⟨_, (Option.some.inj there).symm⟩
  · obtain rfl := List.mem_singleton.mp member
    intro document tool reads
    cases eq_of_numbered reads

theorem decides_numbered {result : Except Failure Path}
    (decides : Decides numbered ⟨"/", []⟩ result) :
    result = .error (.unreadable .numberTooLong) := by
  cases decides with
  | own there => cases there
  | shared reads => cases eq_of_numbered reads
  | broken reads =>
      cases eq_of_numbered reads
      rfl

theorem nested_bare : ∀ e ∈ Path.outward ⟨"/", longNames⟩,
    ownIn (nest longNames) e = none ∧ sharedIn (nest longNames) e = none := by
  have bare : ∀ e ∈ Path.outward ⟨"/", longNames⟩,
      (ownIn (nest longNames) e).isNone = true ∧ (sharedIn (nest longNames) e).isNone = true := by
    decide +kernel
  intro e around
  exact (bare e around).imp Option.isNone_iff_eq_none.mp Option.isNone_iff_eq_none.mp

theorem tidy_nested : Tidy (nest longNames) ⟨"/", longNames⟩ := by
  constructor <;> intro e around
  · intro place there
    cases there.symm.trans (nested_bare e around).2
  · intro document tool reads
    obtain ⟨text, there, -⟩ := reads.reads
    cases there.symm.trans (nested_bare e around).2

theorem nested_silent {e : Path} (around : e ∈ Path.outward ⟨"/", longNames⟩)
    (result : Except Failure Path) : ¬Decides (nest longNames) e result := by
  obtain ⟨alone, bare⟩ := nested_bare e around
  intro decides
  cases decides with
  | own there => cases there.symm.trans alone
  | shared reads | broken reads =>
      obtain ⟨text, there, -⟩ := reads.reads
      cases there.symm.trans bare

/-- No directory has a file with settings or a malformed document, and yet there is no answer: where
the reader gives up at a number, and where the path of a directory is too long for a file in it. -/
theorem find_gives_up :
    (Workspace.resolve ⟨numbered, ⟨"/", []⟩⟩ ⟨"", []⟩ = .ok ⟨"/", []⟩ ∧
      Tidy numbered ⟨"/", []⟩ ∧
      (∀ e ∈ Path.outward ⟨"/", []⟩, (∀ file, ¬Decides numbered e (.ok file)) ∧
        ¬SharedReads numbered e (.error .malformed)) ∧
      find ⟨numbered, ⟨"/", []⟩⟩ ⟨"", []⟩ = .error (.unreadable .numberTooLong)) ∧
    Workspace.resolve ⟨nest longNames, ⟨"/", longNames⟩⟩ ⟨"", []⟩ = .ok ⟨"/", longNames⟩ ∧
    (nest longNames).descend? longNames = some (.directory []) ∧
    Tidy (nest longNames) ⟨"/", longNames⟩ ∧
    (∀ e ∈ Path.outward ⟨"/", longNames⟩, ∀ result, ¬Decides (nest longNames) e result) ∧
    find ⟨nest longNames, ⟨"/", longNames⟩⟩ ⟨"", []⟩ = .error (.unreadable .nameTooLong) := by
  constructor
  · have around : Path.outward ⟨"/", []⟩ = [⟨"/", []⟩] := rfl
    have resolved : Workspace.resolve ⟨numbered, ⟨"/", []⟩⟩ ⟨"", []⟩ = .ok ⟨"/", []⟩ := rfl
    have reach : Workspace.InReach ⟨numbered, ⟨"/", []⟩⟩ ⟨"/", []⟩ fileName :=
      ⟨by decide +kernel, _, rfl⟩
    refine ⟨resolved, tidy_numbered, ?_, ?_⟩
    · rw [around]
      refine List.forall_mem_singleton.mpr ⟨fun file decides => ?_, fun reads => ?_⟩
      · cases decides_numbered decides
      · cases eq_of_numbered reads
    · exact find_of_reached resolved (fun e => looks_of_inReach resolved rfl reach) tidy_numbered
        ⟨[], [], around, List.forall_mem_nil _⟩ (.broken numbered_reads)
  · have same : Path.resolve ⟨"/", longNames⟩ ⟨"", []⟩ = ⟨"/", longNames⟩ := by decide +kernel
    have resolved : Workspace.resolve ⟨nest longNames, ⟨"/", longNames⟩⟩ ⟨"", []⟩ =
        .ok ⟨"/", longNames⟩ := congrArg Except.ok same
    have long : maxPathBytes ≤ (Path.child ⟨"/", longNames⟩ fileName).text.utf8ByteSize := by
      decide +kernel
    have unbroken : Path.hasNull ⟨"/", longNames⟩ = false := by simp [Path.hasNull, longNames]
    refine ⟨resolved, descend?_nest longNames, tidy_nested, fun e => nested_silent, ?_⟩
    exact find_of_outOfReach resolved unbroken fun reach => reach.short.not_ge long

end Preferences.Settings

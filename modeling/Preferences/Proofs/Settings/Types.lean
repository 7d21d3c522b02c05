import Preferences.Proofs.Generation.Outcome

/-! # The storage methods of settings

The table that settings ask for holds the standard methods and their own ones, and nothing else
(`entries_of_storageTable`).  So if the settings have entries of the kinds that they are meant to
have, there is a table, and its methods are texts (`isTyped_of_ofSettings`). -/

namespace Preferences

/-- The entries have the kinds that they are meant to have: all of them are texts. -/
structure Settings.IsTyped (settings : Settings) : Prop where
  runtimeModule : settings.runtimeModule.isText = true
  classSuffix : settings.classSuffix.isText = true
  header : settings.header.isText = true
  types : ∀ entry ∈ settings.types, entry.1.isText = true ∧ entry.2.IsTyped

theorem mem_replaceOrAppend {α : Type} {name : String} {entry : α} {entries : List (String × α)}
    {found : String × α} (h : found ∈ StorageTable.replaceOrAppend name entry entries) :
    found.2 = entry ∨ found ∈ entries := by
  induction entries with
  | nil =>
      rw [StorageTable.replaceOrAppend, List.mem_singleton] at h
      exact Or.inl (congrArg Prod.snd h)
  | cons first rest ih =>
      obtain ⟨other, old⟩ := first
      rw [StorageTable.replaceOrAppend] at h
      split_ifs at h
      · rcases List.mem_cons.mp h with rfl | h
        · exact Or.inl rfl
        · exact Or.inr (List.mem_cons_of_mem _ h)
      · rcases List.mem_cons.mp h with rfl | h
        · exact Or.inr List.mem_cons_self
        · exact (ih h).imp_right (List.mem_cons_of_mem _)

namespace Settings

section table
variable {settings : Settings} {table next : StorageTable} {entry : Value × StorageMethod}

theorem registerEntry_ok (entered : registerEntry table entry = .ok next) :
    ∀ found ∈ next.entries, found.2 = entry.2 ∨ found ∈ table.entries := by
  obtain ⟨valueType, method⟩ := entry
  cases valueType with
  | text valueType =>
      obtain rfl := Except.ok.inj entered
      exact fun found member => mem_replaceOrAppend member
  | _ => cases entered

theorem foldlM_registerEntry_ok {types : List (Value × StorageMethod)}
    (registered : types.foldlM registerEntry table = .ok next) :
    ∀ found ∈ next.entries, (∃ entry ∈ types, found.2 = entry.2) ∨ found ∈ table.entries := by
  induction types generalizing table with
  | nil =>
      obtain rfl := Except.ok.inj registered
      exact fun found member => Or.inr member
  | cons first rest ih =>
      rw [List.foldlM_cons] at registered
      obtain ⟨between, entered, registered⟩ := bind_eq_ok_iff.mp registered
      intro found member
      rcases ih registered found member with ⟨entry, later, same⟩ | member
      · exact Or.inl ⟨entry, List.mem_cons_of_mem _ later, same⟩
      · exact (registerEntry_ok entered found member).imp_left
          fun same => ⟨first, List.mem_cons_self, same⟩

/-- What holds of the standard methods and of those of the settings holds of all in the table. -/
theorem entries_of_storageTable (fits : StorageMethod → Prop)
    (made : settings.storageTable = .ok table)
    (standard : ∀ entry ∈ StorageTable.standard.entries, fits entry.2)
    (own : ∀ entry ∈ settings.types, fits entry.2) : ∀ entry ∈ table.entries, fits entry.2 := by
  intro found member
  rcases foldlM_registerEntry_ok made found member with ⟨entry, given, same⟩ | member
  · rw [same]
    exact own entry given
  · exact standard found member

theorem exists_foldlM_registerEntry {types : List (Value × StorageMethod)}
    (texts : ∀ entry ∈ types, entry.1.isText = true) (table : StorageTable) :
    ∃ next, types.foldlM registerEntry table = .ok next := by
  induction types generalizing table with
  | nil => exact ⟨table, rfl⟩
  | cons first rest ih =>
      obtain ⟨text, later⟩ := List.forall_mem_cons.mp texts
      obtain ⟨valueType, method⟩ := first
      cases valueType with
      | text valueType =>
          rw [List.foldlM_cons]
          exact ih later (table.register valueType method)
      | _ => cases text

end table

end Settings

namespace Generator

variable {settings : Settings} {g : Generator}

theorem storageTable_of_ofSettings (made : ofSettings settings = .ok g) :
    settings.storageTable = .ok g.table ∧ g.runtimeModule = settings.runtimeModule := by
  obtain ⟨table, registered, same⟩ := bind_eq_ok_iff.mp made
  obtain rfl := Except.ok.inj same
  exact ⟨registered, rfl⟩

theorem isTyped_of_ofSettings (typed : settings.IsTyped) (made : ofSettings settings = .ok g) :
    ∀ entry ∈ g.table.entries, entry.2.IsTyped :=
  Settings.entries_of_storageTable _ (storageTable_of_ofSettings made).1 standard_isTyped
    fun entry given => (typed.types entry given).2

/-- Settings of the right kinds have a generator. -/
theorem exists_ofSettings (typed : settings.IsTyped) : ∃ g, ofSettings settings = .ok g := by
  have texts := fun entry given => (typed.types entry given).1
  obtain ⟨table, made⟩ := Settings.exists_foldlM_registerEntry texts StorageTable.standard
  exact ⟨_, bind_eq_ok_iff.mpr ⟨table, made, rfl⟩⟩

end Generator

end Preferences

import Preferences.Proofs.Generation.Outcome

/-! # When derived names collide

A preference that leaves the names of its methods to the naming style gets one suffix behind the
stems `get`, `set` and `remove`.  Different stems never lead to one name (`stem_append_inj`), so in
a class that has only such preferences the names of the methods differ exactly if the suffixes do
and none of them completes the name `get_instance` (`nodup_methodNames_iff`); otherwise the class is
rejected, as far as that can be written (`generate_rejected_iff`). -/

namespace Preferences

open Naming (Style)

namespace Preference

/-- The accessors have the names that the style derives from the name of the preference. -/
structure IsDerived (style : Style) (p : Preference) : Prop where
  name : p.name.isText = true
  getter : ∀ suffix, style.suffixOf p.name = .ok suffix → p.getter.name = .text ("get" ++ suffix)
  setter : p.setter.method? = none
  remover : p.remover.method? = none

/-- The suffix that the style derives from the name; there is none if that is no text. -/
def suffix (style : Style) (p : Preference) : String :=
  match p.name with
  | .text name => String.ofList (style.methodSuffix name.toList)
  | _ => ""

/-- The stems of the accessors, in order. -/
def stems (p : Preference) : List String :=
  "get" :: ((if p.setter.isGenerated then ["set"] else []) ++
    if p.remover.isGenerated then ["remove"] else [])

def derivedNames (style : Style) (p : Preference) : List String :=
  p.stems.map fun stem => stem ++ p.suffix style

variable {style : Style} {p : Preference}

theorem suffixOf_name (text : p.name.isText = true) :
    style.suffixOf p.name = .ok (p.suffix style) := by
  unfold suffix
  cases named : p.name with
  | text name => rfl
  | _ =>
      rw [named] at text
      cases text

theorem methodName?_of_derived {mutator : Mutator} (derived : mutator.method? = none)
    (text : p.name.isText = true) (stem : String) :
    mutator.methodName? style stem p = some (.text (stem ++ p.suffix style)) := by
  unfold Mutator.methodName? suffix
  rw [derived]
  cases named : p.name with
  | text name => rfl
  | _ =>
      rw [named] at text
      cases text

theorem IsDerived.accessorNames (h : p.IsDerived style) :
    p.accessorNames style = (p.derivedNames style).map Value.text := by
  unfold Preference.accessorNames derivedNames stems
  rw [h.getter _ (suffixOf_name h.name), methodName?_of_derived h.setter h.name,
    methodName?_of_derived h.remover h.name]
  split_ifs <;> rfl

theorem get_mem_stems (p : Preference) : "get" ∈ p.stems := List.mem_cons_self

theorem stems_nodup (p : Preference) : p.stems.Nodup := by
  unfold stems
  split_ifs <;> decide +kernel

theorem mem_stems {stem : String} (h : stem ∈ p.stems) :
    stem = "get" ∨ stem = "set" ∨ stem = "remove" := by
  unfold stems at h
  split_ifs at h <;> simp at h <;> tauto

/-! ### Stems and suffixes -/

variable {q : Preference}

/-- A name tells its stem and its suffix: the stems start with different letters. -/
theorem stem_append_inj {stem other s t : String} (h : stem ∈ p.stems) (h' : other ∈ q.stems)
    (same : stem ++ s = other ++ t) : stem = other ∧ s = t := by
  have chars := congrArg String.toList same
  simp only [String.toList_append] at chars
  rcases mem_stems h with rfl | rfl | rfl <;> rcases mem_stems h' with rfl | rfl | rfl <;>
    simp_all [String.ext_iff]

/-- Of the fixed names, a stem only leads to that of the method for the instance. -/
theorem stem_append_eq_getInstance_iff {stem s : String} (h : stem ∈ p.stems) :
    stem ++ s = "get_instance" ↔ stem = "get" ∧ s = "_instance" := by
  have split : "get_instance" = "get" ++ "_instance" := by decide +kernel
  rw [split]
  refine ⟨stem_append_inj h p.get_mem_stems, ?_⟩
  rintro ⟨rfl, rfl⟩
  rfl

theorem stem_append_not_mem {stem : String} (h : stem ∈ p.stems) (s : String) :
    stem ++ s ∉ ["__init__", "clear", "begin_transaction"] := by
  have differs : ∀ name ∈ ["__init__", "clear", "begin_transaction"],
      name.toList.head? ≠ (stem ++ s).toList.head? := by
    intro name hn
    simp only [List.mem_cons, List.not_mem_nil, or_false] at hn
    rw [String.toList_append]
    rcases mem_stems h with rfl | rfl | rfl <;> rcases hn with rfl | rfl | rfl <;> simp
  exact fun mem => differs _ mem rfl

theorem mem_derivedNames {name : String} :
    name ∈ p.derivedNames style ↔ ∃ stem ∈ p.stems, stem ++ p.suffix style = name := List.mem_map

theorem derivedNames_nodup : (p.derivedNames style).Nodup := by
  refine List.Nodup.map_on (fun stem h other h' same => ?_) p.stems_nodup
  exact (stem_append_inj h h' same).1

/-- Two preferences have no name in common exactly if their suffixes differ: with one suffix their
getters have one name. -/
theorem derivedNames_disjoint_iff :
    (p.derivedNames style).Disjoint (q.derivedNames style) ↔ p.suffix style ≠ q.suffix style := by
  constructor
  · intro disjoint same
    refine disjoint (mem_derivedNames.mpr ⟨"get", p.get_mem_stems, rfl⟩) ?_
    exact mem_derivedNames.mpr ⟨"get", q.get_mem_stems, by rw [same]⟩
  · intro differ name hp hq
    obtain ⟨stem, h, rfl⟩ := mem_derivedNames.mp hp
    obtain ⟨other, h', same⟩ := mem_derivedNames.mp hq
    exact differ (stem_append_inj h' h same).2.symm

variable {preferences : List Preference}

theorem nodup_derivedNames_iff :
    (preferences.flatMap (derivedNames style)).Nodup ↔ (preferences.map (suffix style)).Nodup := by
  rw [List.nodup_flatMap, and_iff_right fun _ _ => derivedNames_nodup, List.Nodup,
    List.pairwise_map]
  exact List.Pairwise.iff fun p q => derivedNames_disjoint_iff

theorem getInstance_mem_derivedNames_iff :
    "get_instance" ∈ preferences.flatMap (derivedNames style) ↔
      "_instance" ∈ preferences.map (suffix style) := by
  simp only [List.mem_flatMap, List.mem_map, mem_derivedNames]
  refine exists_congr fun p => and_congr_right fun _ => ⟨?_, fun same => ?_⟩
  · rintro ⟨stem, h, same⟩
    exact ((stem_append_eq_getInstance_iff h).mp same).2
  · exact ⟨"get", p.get_mem_stems,
      (stem_append_eq_getInstance_iff p.get_mem_stems).mpr ⟨rfl, same⟩⟩

end Preference

/-! ### All names of a class -/

/-- The names of the methods of a class whose accessors have derived names. -/
def Declaration.derivedNames (style : Style) (d : Declaration) : List String :=
  "get_instance" :: d.preferences.flatMap (Preference.derivedNames style) ++
    ["__init__", "clear", "begin_transaction"]

namespace Declaration

variable {style : Style} {d : Declaration}

theorem methodNames_of_derived (h : ∀ p ∈ d.preferences, p.IsDerived style) :
    d.methodNames style = (d.derivedNames style).map Value.text := by
  have names : ∀ preferences : List Preference, (∀ p ∈ preferences, p.IsDerived style) →
      preferences.flatMap (Preference.accessorNames style) =
        (preferences.flatMap (Preference.derivedNames style)).map Value.text := by
    intro preferences h
    rw [List.map_flatMap]
    exact List.flatMap_congr fun p hp => (h p hp).accessorNames
  unfold methodNames derivedNames
  rw [names _ h, List.map_append, List.map_cons]
  rfl

/-- The names differ exactly if the suffixes do and none of them is that of the fixed getter. -/
theorem derivedNames_nodup_iff : (d.derivedNames style).Nodup ↔
    (d.preferences.map (Preference.suffix style)).Nodup ∧
      "_instance" ∉ d.preferences.map (Preference.suffix style) := by
  have apart : (d.preferences.flatMap (Preference.derivedNames style)).Disjoint
      ["__init__", "clear", "begin_transaction"] := by
    intro name hn fixed
    obtain ⟨p, -, hn⟩ := List.mem_flatMap.mp hn
    obtain ⟨stem, h, rfl⟩ := Preference.mem_derivedNames.mp hn
    exact Preference.stem_append_not_mem h _ fixed
  have fixed : ["__init__", "clear", "begin_transaction"].Nodup := by decide +kernel
  have first : "get_instance" ∉ ["__init__", "clear", "begin_transaction"] := by decide +kernel
  have rest : (d.preferences.flatMap (Preference.derivedNames style) ++
      ["__init__", "clear", "begin_transaction"]).Nodup ↔
        (d.preferences.flatMap (Preference.derivedNames style)).Nodup := by
    rw [List.nodup_append']
    exact and_iff_left ⟨fixed, apart⟩
  unfold derivedNames
  rw [List.cons_append, List.nodup_cons, List.mem_append, or_iff_left first,
    Preference.getInstance_mem_derivedNames_iff, rest, Preference.nodup_derivedNames_iff, and_comm]

/-- The suffixes of the preferences, as the naming style derives them. -/
def suffixes (style : Style) (d : Declaration) : List (Except Misuse String) :=
  d.preferences.map fun p => style.suffixOf p.name

/-- Two preferences have one suffix, or one has that of the method for the instance. -/
def SuffixesClash (style : Style) (d : Declaration) : Prop :=
  ¬(d.suffixes style).Nodup ∨ .ok "_instance" ∈ d.suffixes style

theorem suffixes_of_derived (h : ∀ p ∈ d.preferences, p.IsDerived style) :
    d.suffixes style = (d.preferences.map (Preference.suffix style)).map Except.ok := by
  rw [suffixes, List.map_map]
  exact List.map_congr_left fun p hp => Preference.suffixOf_name (h p hp).name

theorem nodup_methodNames_iff (h : ∀ p ∈ d.preferences, p.IsDerived style) :
    (d.methodNames style).Nodup ↔ ¬d.SuffixesClash style := by
  have ok_inj : Function.Injective (Except.ok : String → Except Misuse String) :=
    fun _ _ => Except.ok.inj
  have text_inj : Function.Injective Value.text := fun _ _ => Value.text.inj
  rw [methodNames_of_derived h, List.nodup_map_iff text_inj, derivedNames_nodup_iff, SuffixesClash,
    suffixes_of_derived h, List.nodup_map_iff ok_inj, List.mem_map_of_injective ok_inj, not_or,
    not_not]

end Declaration

/-! ### What becomes of the class -/

namespace Generator

variable {g : Generator} {d : Declaration}

theorem distinct_iff_nodup {names : List Value} (texts : ∀ name ∈ names, name.isText = true) :
    Distinct names ↔ names.Nodup := by
  have differ : names.Pairwise (fun name other => name.same other = false) ↔ names.Nodup :=
    List.Pairwise.iff_of_mem fun {name other} hn ho => by
      rw [Value.same_eq_decide (texts other ho), decide_eq_false_iff_not]
  exact ⟨fun h => differ.mp h.differ,
    fun h => ⟨fun name hn => Value.isKey_of_isText (texts name hn), differ.mpr h⟩⟩

theorem not_unsupported (known : ∀ p ∈ d.preferences, g.Resolves p) :
    ¬∃ r, g.Unsupported d r := by
  rintro ⟨r, before, p, after, valueType, split, -, typed, unknown, -⟩
  exact not_resolves_of_unknown typed unknown (known p (by simp [split]))

/-- A class whose types are known is rejected for a repeated name or not at all. -/
theorem repeats_of_rejected (known : ∀ p ∈ d.preferences, g.Resolves p) {r : Rejection}
    (rejected : g.generate d = .error (.rejected r)) : g.Repeats d r :=
  (unsupported_or_repeats_of_rejected rejected).resolve_left fun unsupported =>
    not_unsupported known ⟨r, unsupported⟩

section derived
variable (h : ∀ p ∈ d.preferences, p.IsDerived g.style) (known : ∀ p ∈ d.preferences, g.Resolves p)
include h

theorem usable_iff_of_derived : g.Usable d ↔ g.CanWrite d :=
  ⟨fun usable => usable.writable, fun writable => ⟨writable, fun p hp => Or.inl (h p hp).name⟩⟩

theorem isText_methodNames_of_derived : ∀ name ∈ d.methodNames g.style, name.isText = true := by
  rw [Declaration.methodNames_of_derived h]
  intro name hn
  obtain ⟨word, -, rfl⟩ := List.mem_map.mp hn
  rfl

theorem distinct_iff_of_derived :
    Distinct (d.methodNames g.style) ↔ ¬d.SuffixesClash g.style := by
  rw [distinct_iff_nodup (isText_methodNames_of_derived h), Declaration.nodup_methodNames_iff h]

include known

theorem exists_repeats_iff_of_derived :
    (∃ r, g.Repeats d r) ↔ d.SuffixesClash g.style ∧ g.CanWrite d := by
  constructor
  · rintro ⟨r, -, usable, name, ⟨before, after, split, distinct, other, ho, same⟩, -⟩
    refine ⟨?_, usable.writable⟩
    by_contra unclashed
    have all := (distinct_iff_of_derived h).mpr unclashed
    rw [split] at all
    rw [all.fresh.2 other ho] at same
    cases same
  · rintro ⟨clash, writable⟩
    rcases distinct_or_repeatsFirst fun name hn =>
      Value.isKey_of_isText (isText_methodNames_of_derived h name hn) with distinct | ⟨name, first⟩
    · exact absurd clash ((distinct_iff_of_derived h).mp distinct)
    · exact ⟨_, known, (usable_iff_of_derived h).mpr writable, name, first, rfl⟩

theorem accepts_iff_of_derived : g.Accepts d ↔ ¬d.SuffixesClash g.style ∧ g.CanWrite d :=
  ⟨fun accepts => ⟨(distinct_iff_of_derived h).mp accepts.distinct, accepts.usable.writable⟩,
    fun fits => ⟨known, (usable_iff_of_derived h).mpr fits.2,
      (distinct_iff_of_derived h).mpr fits.1⟩⟩

omit known in
/-- Such a rejection can be written if its line can. -/
theorem ofRejection_eq_of_derived {r : Rejection} (repeats : g.Repeats d r) :
    Failure.ofRejection r = .rejected r ↔
      ∀ location, d.location = some location → location.line.isWritable = true := by
  obtain ⟨-, usable, name, ⟨before, after, split, -⟩, rfl⟩ := repeats
  have text : name.isText = true := isText_methodNames_of_derived h name (by simp [split])
  rw [ofRejection_eq_rejected_iff, and_iff_left rfl, Rejection.values, Reason.values,
    List.all_append, List.all_cons, List.all_cons, usable.writable.name,
    Value.isWritable_of_isText text]
  cases d.location <;> simp

/-- Such a class is rejected exactly if the suffixes of its preferences clash, everything it is made
of can be written, and so can its line. -/
theorem generate_rejected_iff :
    (∃ r, g.generate d = .error (.rejected r)) ↔ d.SuffixesClash g.style ∧ g.CanWrite d ∧
      ∀ location, d.location = some location → location.line.isWritable = true := by
  constructor
  · rintro ⟨r, rejected⟩
    have repeats := repeats_of_rejected known rejected
    obtain ⟨clash, writable⟩ := (exists_repeats_iff_of_derived h known).mp ⟨r, repeats⟩
    refine ⟨clash, writable, (ofRejection_eq_of_derived h repeats).mp ?_⟩
    exact Except.error.inj ((generate_of_repeats repeats).symm.trans rejected)
  · rintro ⟨clash, writable, line⟩
    obtain ⟨r, repeats⟩ := (exists_repeats_iff_of_derived h known).mpr ⟨clash, writable⟩
    refine ⟨r, ?_⟩
    rw [generate_of_repeats repeats, (ofRejection_eq_of_derived h repeats).mpr line]

end derived

end Generator

end Preferences

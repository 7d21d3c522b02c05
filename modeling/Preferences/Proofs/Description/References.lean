import Preferences.Proofs.Description.Reported
import Preferences.Proofs.Members.Parameters

/-! # References that are read

A reference is written as its module, a colon or a dot, and its name, with blanks around the whole
(`TypeRef.IsWrittenAs`).  A name is an identifier, so it holds neither of the two marks and no
blank, while a module may hold blanks and dots.  Still a text comes apart in one way only: at its
first colon, or, where there is none, at its last dot (`split_colon`, `split_dot`).  Reading
therefore accepts exactly the written references (`typeRefOf_eq_ok_iff`), and reads both forms of a
reference that was read as that reference again (`typeRefOf_exact`). -/

namespace Preferences

open Text

namespace TypeRef

/-- The text can stand for a module: it neither is empty nor begins with a blank, and it holds no
colon. -/
structure IsModule (s : List Char) : Prop where
  ne : s ≠ []
  first : ∀ c ∈ s.head?, isBlank c = false
  colon : ':' ∉ s

/-- The reference has a module, and its name is an identifier. -/
structure IsProper (ref : TypeRef) : Prop where
  module : IsModule ref.module.toList
  name : isIdentifier ref.name.toList = true

def AreBlank (s : List Char) : Prop := ∀ c ∈ s, isBlank c = true

/-- The text is the reference with a colon or a dot in it, and with blanks around it. -/
inductive IsWrittenAs (ref : TypeRef) : List Char → Prop
  | around {front back : List Char} {mark : Char} (before : AreBlank front)
      (marks : mark = ':' ∨ mark = '.') (after : AreBlank back) :
      IsWrittenAs ref (front ++ (ref.module.toList ++ mark :: ref.name.toList) ++ back)

variable {s module name front back : List Char} {mark c : Char} {ref : TypeRef}

/-! ### Names -/

theorem parts_land_blanks : identifierParts.spanned &&& blanks.spanned = 0 := by decide +kernel

theorem not_isBlank_of_continuesIdentifier (h : continuesIdentifier c = true) :
    isBlank c = false := by
  rw [continuesIdentifier, ← CodeRanges.testBit_spanned_toNat] at h
  rw [isBlank, ← CodeRanges.testBit_spanned_toNat]
  exact Bool.eq_false_iff.mpr (apart_of_land_eq_zero parts_land_blanks h)

theorem marks_end_names : continuesIdentifier ':' = false ∧ continuesIdentifier '.' = false := by
  decide +kernel

theorem not_mem_name (named : isIdentifier name = true) : ':' ∉ name ∧ '.' ∉ name := by
  have parts := (isIdentifier_iff.mp named).2
  exact ⟨fun colon => Bool.false_ne_true (marks_end_names.1.symm.trans (parts _ colon)),
    fun dot => Bool.false_ne_true (marks_end_names.2.symm.trans (parts _ dot))⟩

/-! ### Blanks around a text -/

theorem dropWhile_of_areBlank (blank : AreBlank s) : s.dropWhile isBlank = [] :=
  List.dropWhile_eq_nil_iff.mpr blank

theorem trim_around (before : AreBlank front) (after : AreBlank back) (known : IsModule module)
    (named : isIdentifier name = true) :
    trim (front ++ (module ++ mark :: name) ++ back) = module ++ mark :: name := by
  obtain ⟨⟨c, head, -⟩, parts⟩ := isIdentifier_iff.mp named
  have ne : name ≠ [] := by
    rintro rfl
    cases head
  have first : ∀ c ∈ (module ++ mark :: name).head?, isBlank c = false := by
    rw [List.head?_append_of_ne_nil _ known.ne]
    exact known.first
  have last : ∀ c ∈ (module ++ mark :: name).getLast?, isBlank c = false := by
    intro c final
    rw [List.getLast?_append_of_ne_nil _ (List.cons_ne_nil _ _), List.getLast?_cons_of_ne_nil ne]
      at final
    exact not_isBlank_of_continuesIdentifier (parts c (List.mem_of_getLast? final))
  have reversed : AreBlank back.reverse := fun c mem => after c (List.mem_reverse.mp mem)
  rw [trim, trimBy_append (by simp) first last, dropWhile_of_areBlank before,
    dropWhile_of_areBlank reversed, List.nil_append, List.reverse_nil, List.append_nil]

/-- A text is what trimming leaves of it, with blanks around. -/
theorem eq_around_trim (s : List Char) :
    ∃ front back, AreBlank front ∧ AreBlank back ∧ s = front ++ trim s ++ back := by
  have before : AreBlank (s.takeWhile isBlank) := fun c mem => List.mem_takeWhile_imp mem
  refine ⟨s.takeWhile isBlank, ((s.dropWhile isBlank).reverse.takeWhile isBlank).reverse, before,
    fun c mem => List.mem_takeWhile_imp (List.mem_reverse.mp mem), ?_⟩
  rw [trim, trimBy, List.append_assoc, ← List.reverse_append, List.takeWhile_append_dropWhile,
    List.reverse_reverse, List.takeWhile_append_dropWhile]

/-! ### Taking a text apart -/

/-- A text with a colon comes apart at the first one. -/
theorem split_colon (colon : ':' ∉ module) : split (module ++ ':' :: name) = (module, name) := by
  have before : ∀ c ∈ module, (c != ':') = true := fun c mem => by
    rw [bne_iff_ne]
    rintro rfl
    exact colon mem
  rw [split, if_pos (by simp), splitColon, List.takeWhile_append_of_pos before,
    List.dropWhile_append_of_pos before]
  simp

theorem take_before_mark :
    (module ++ mark :: name).take ((module ++ mark :: name).length - name.length - 1) = module := by
  have before : (module ++ mark :: name).length - name.length - 1 = module.length := by
    rw [List.length_append, List.length_cons]
    omega
  rw [before, List.take_left]

/-- A text without a colon comes apart at the last dot. -/
theorem split_dot (module_colon : ':' ∉ module) (name_colon : ':' ∉ name) (dot : '.' ∉ name) :
    split (module ++ '.' :: name) = (module, name) := by
  have behind : ∀ c ∈ name.reverse, (c != '.') = true := fun c mem => by
    rw [bne_iff_ne]
    rintro rfl
    exact dot (List.mem_reverse.mp mem)
  have last : ((module ++ '.' :: name).reverse.takeWhile (· != '.')).reverse = name := by
    rw [List.reverse_append, List.reverse_cons, List.append_assoc,
      List.takeWhile_append_of_pos behind]
    simp
  rw [split, if_neg (by simp [module_colon, name_colon]), splitLastDot]
  simp only [last]
  rw [take_before_mark]

/-- What comes apart with something in front of the name was written with one of the marks. -/
theorem eq_of_split (apart : split s = (module, name)) (ne : module ≠ []) :
    ':' ∉ module ∧ ∃ mark, (mark = ':' ∨ mark = '.') ∧ s = module ++ mark :: name := by
  unfold split at apart
  by_cases colon : s.contains ':' = true
  · rw [if_pos colon, splitColon, Prod.mk.injEq] at apart
    obtain ⟨rfl, rfl⟩ := apart
    refine ⟨fun mem => absurd (List.mem_takeWhile_imp mem) (by simp), ':', Or.inl rfl, ?_⟩
    cases rest : s.dropWhile (· != ':') with
    | nil =>
        have none := List.dropWhile_eq_nil_iff.mp rest ':' (by simpa using colon)
        simp at none
    | cons c tail =>
        have stops := List.head?_dropWhile_not (· != ':') s
        rw [rest] at stops
        obtain rfl : c = ':' := by simpa using stops
        rw [List.drop_one, List.tail_cons, ← rest, List.takeWhile_append_dropWhile]
  · rw [if_neg colon, splitLastDot, Prod.mk.injEq] at apart
    obtain ⟨rfl, rfl⟩ := apart
    refine ⟨fun mem => colon (by simpa using List.mem_of_mem_take mem), '.', Or.inr rfl, ?_⟩
    have whole : s = (s.reverse.dropWhile (· != '.')).reverse ++
        (s.reverse.takeWhile (· != '.')).reverse := by
      rw [← List.reverse_append, List.takeWhile_append_dropWhile, List.reverse_reverse]
    cases rest : s.reverse.dropWhile (· != '.') with
    | nil =>
        rw [rest, List.reverse_nil, List.nil_append] at whole
        rw [← whole] at ne
        simp at ne
    | cons c tail =>
        have stops := List.head?_dropWhile_not (· != '.') s.reverse
        rw [rest] at stops
        obtain rfl : c = '.' := by simpa using stops
        rw [rest, List.reverse_cons, List.append_assoc, List.singleton_append] at whole
        generalize (s.reverse.takeWhile (· != '.')).reverse = name at whole ⊢
        rw [whole, take_before_mark]

/-! ### Reading -/

/-- Exactly the written references are read. -/
theorem ofText_eq_ok_iff {text : String} :
    ofText text = .ok ref ↔ ref.IsProper ∧ ref.IsWrittenAs text.toList := by
  unfold ofText ofChars
  constructor
  · intro read
    obtain ⟨front, back, before, after, around⟩ := eq_around_trim text.toList
    rcases apart : split (trim text.toList) with ⟨module, name⟩
    rw [apart] at read
    dsimp only at read
    split_ifs at read with unnamed bare
    obtain rfl := Except.ok.inj read
    have named : isIdentifier name = true := by simpa using unnamed
    have ne : module ≠ [] := by simpa using bare
    obtain ⟨colon, mark, marks, core⟩ := eq_of_split apart ne
    have first : ∀ c ∈ module.head?, isBlank c = false := by
      intro c head
      refine head?_trimBy (s := text.toList) (c := c) ?_
      rw [← trim, core, List.head?_append_of_ne_nil _ ne]
      exact head
    refine ⟨⟨by simpa using ⟨ne, first, colon⟩, by simpa using named⟩, ?_⟩
    rw [around, core]
    have written : TypeRef.IsWrittenAs ⟨String.ofList module, String.ofList name⟩ _ :=
      .around before marks after
    simpa using written
  · rintro ⟨⟨known, named⟩, written⟩
    generalize text.toList = s at written
    obtain ⟨before, marks, after⟩ := written
    have apart := not_mem_name named
    rw [trim_around before after known named]
    rcases marks with rfl | rfl
    · rw [split_colon known.colon]
      simp [named, known.ne]
    · rw [split_dot known.colon apart.1 apart.2]
      simp [named, known.ne]

theorem isWrittenAs_of_mark (marks : mark = ':' ∨ mark = '.')
    (joined : s = ref.module.toList ++ mark :: ref.name.toList) : ref.IsWrittenAs s := by
  have blank : AreBlank [] := nofun
  have written : ref.IsWrittenAs _ := .around blank marks blank
  rw [joined]
  simpa using written

end TypeRef

namespace Description

variable {text : String} {ref : TypeRef}

theorem typeRefOf_eq_ok_iff :
    typeRefOf text = .ok ref ↔ ref.IsProper ∧ ref.IsWrittenAs text.toList := by
  rw [← TypeRef.ofText_eq_ok_iff, typeRefOf]
  split
  next found read => rw [read, Except.ok.injEq, Except.ok.injEq]
  next read => rw [read]; exact iff_of_false nofun nofun
  next read => rw [read]; exact iff_of_false nofun nofun

/-- **Reading references is exact.**  A text is read as a reference exactly if it is that reference
in writing: a module that is not empty, does not begin with a blank and holds no colon, then a colon
or a dot, then an identifier, and blanks around the whole.  What was read is read again from both of
its written forms, and every other text is rejected. -/
theorem typeRefOf_exact (text : String) :
    (∀ ref : TypeRef, typeRefOf text = .ok ref ↔ ref.IsProper ∧ ref.IsWrittenAs text.toList) ∧
    (∀ ref : TypeRef, typeRefOf text = .ok ref →
      typeRefOf ref.text = .ok ref ∧ typeRefOf (ref.module ++ ":" ++ ref.name) = .ok ref) ∧
    ((¬∃ ref : TypeRef, ref.IsProper ∧ ref.IsWrittenAs text.toList) →
      ∃ reason, typeRefOf text = .error reason ∧
        Failure.ofRejection ⟨reason, none⟩ = .rejected ⟨reason, none⟩) := by
  refine ⟨fun ref => typeRefOf_eq_ok_iff, fun ref read => ?_, fun unwritten => ?_⟩
  · have proper := (typeRefOf_eq_ok_iff.mp read).1
    constructor
    · refine typeRefOf_eq_ok_iff.mpr ⟨proper, TypeRef.isWrittenAs_of_mark (Or.inr rfl) ?_⟩
      simp [TypeRef.text]
    · refine typeRefOf_eq_ok_iff.mpr ⟨proper, TypeRef.isWrittenAs_of_mark (Or.inl rfl) ?_⟩
      simp
  · cases read : typeRefOf text with
    | ok ref => exact absurd ⟨ref, typeRefOf_eq_ok_iff.mp read⟩ unwritten
    | error reason =>
        refine ⟨reason, rfl, ofRejection_eq_rejected_iff.mpr ⟨?_, rfl⟩⟩
        simp [Rejection.values, values_of_typeRefOf read]

/-- A module may hold dots and blanks, and end with a blank; a name without a module is rejected. -/
theorem typeRefOf_exact_spaced :
    typeRefOf " my app.v1 :Settings\n" = .ok ⟨"my app.v1 ", "Settings"⟩ ∧
    (typeRefOf "my app.v1 .Settings" = .ok ⟨"my app.v1 ", "Settings"⟩ ∧
      typeRefOf "my app.v1 :Settings" = .ok ⟨"my app.v1 ", "Settings"⟩) ∧
    ∃ reason, typeRefOf ".Settings" = .error reason ∧
      Failure.ofRejection ⟨reason, none⟩ = .rejected ⟨reason, none⟩ := by
  have read : typeRefOf " my app.v1 :Settings\n" = .ok ⟨"my app.v1 ", "Settings"⟩ := rfl
  refine ⟨read, (typeRefOf_exact _).2.1 _ read, (typeRefOf_exact _).2.2 ?_⟩
  rintro ⟨ref, written⟩
  exact nomatch ((typeRefOf_exact ".Settings").1 ref).mpr written

end Description

end Preferences

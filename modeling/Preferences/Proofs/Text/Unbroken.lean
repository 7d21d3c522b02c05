import Preferences.Naming.Derived
import Preferences.Proofs.Naming.Stable
import Preferences.Proofs.Text.Literals

/-! # Texts without line breaks

A text is `Unbroken` if it holds none of some characters that end a line.  A text put together from
others is unbroken exactly if they are, and a literal always is.  Snake case takes line breaks out
of a name, as it takes out all that separates words, while camel case leaves them where they are
(`unbroken_methodSuffix_iff`, `unbroken_variableName_iff`). -/

namespace Preferences.Text

def Unbroken (breaks : List Char) (s : String) : Prop := ∀ c ∈ s.toList, c ∉ breaks

instance (breaks : List Char) (s : String) : Decidable (Unbroken breaks s) :=
  List.decidableBAll (fun c => c ∉ breaks) s.toList

section unbroken
variable {breaks : List Char} {s t : String} {l : List Char}

@[simp high] theorem unbroken_append :
    Unbroken breaks (s ++ t) ↔ Unbroken breaks s ∧ Unbroken breaks t := by
  simp only [Unbroken, String.toList_append, List.forall_mem_append]

theorem unbroken_ofList : Unbroken breaks (String.ofList l) ↔ ∀ c ∈ l, c ∉ breaks := by
  rw [Unbroken, String.toList_ofList]

@[simp] theorem unbroken_empty : Unbroken breaks "" := by
  rintro c ⟨⟩

theorem unbroken_intercalate {parts : List String} (sep : Unbroken breaks s)
    (all : ∀ part ∈ parts, Unbroken breaks part) : Unbroken breaks (s.intercalate parts) := by
  induction parts with
  | nil => exact unbroken_empty
  | cons part rest ih =>
      obtain ⟨first, later⟩ := List.forall_mem_cons.mp all
      cases rest with
      | nil => simpa using first
      | cons next rest =>
          rw [String.intercalate_cons_cons, unbroken_append, unbroken_append]
          exact ⟨⟨first, sep⟩, ih later⟩

variable (within : breaks ⊆ lineBreaks)
include within

theorem unbroken_of_all (h : s.toList.all (fun c => 32 ≤ c.toNat && c.toNat ≤ 126) = true) :
    Unbroken breaks s := by
  intro c member broken
  have outside : lineBreaks.all (fun c => c.toNat < 32 || 126 < c.toNat) = true := by decide
  have other := List.all_eq_true.mp outside c (within broken)
  have sign := List.all_eq_true.mp h c member
  simp only [Bool.or_eq_true, Bool.and_eq_true, decide_eq_true_eq] at other sign
  omega

theorem unbroken_literal (t : String) : Unbroken breaks (Value.text t).literal :=
  fun c member broken => ((readLiteral?_literal t [] nofun).2.1 c member).2 (within broken)

end unbroken

end Preferences.Text

namespace Preferences.Naming

open Preferences.Text

variable {breaks : List Char} {c d : Char} {name : List Char}

/-! ### Line breaks in both cases -/

theorem isSeparator_of_mem_lineBreaks (h : c ∈ lineBreaks) : isSeparator c = true := by
  have all : lineBreaks.all isSeparator = true := by decide
  exact List.all_eq_true.mp all c h

theorem cases_of_mem_lineBreaks (h : c ∈ lineBreaks) : lower [c] = [c] ∧ upper [c] = [c] := by
  have all : lineBreaks.all (fun c => lower [c] == [c] && upper [c] == [c]) = true := by
    decide +kernel
  simpa using List.all_eq_true.mp all c h

theorem upperImages_apart : (bitsIn CaseRun.images upperRuns ||| bitsIn Prod.snd upperSequences) &&&
    bits (lineBreaks.map Char.toNat) = 0 := by
  decide +kernel

theorem null_not_mem_lineBreaks : '\x00' ∉ lineBreaks := by decide

theorem eq_of_mem_upper (breaks : d ∈ lineBreaks) (h : d ∈ upper [c]) : d = c := by
  rw [upper, List.flatMap_singleton] at h
  rcases mem_mapCase h with ⟨n, image, rfl⟩ | ⟨same, -⟩
  · have code := (toNat_ofNat_or n).resolve_right fun null => by
      rw [null] at breaks
      exact null_not_mem_lineBreaks breaks
    refine absurd (testBit_bits.mpr ?_) (apart_of_land_eq_zero upperImages_apart image)
    exact List.mem_map.mpr ⟨_, breaks, code⟩
  · exact same

theorem eq_of_mem_lower (breaks : d ∈ lineBreaks) (h : d ∈ lower [c]) : d = c := by
  rw [lower, lowerAfter, lowerAfter, List.append_nil] at h
  exact (mem_lowerBetween h).2 (isSeparator_of_mem_lineBreaks breaks)

/-! ### Derived names -/

/-- A text with its first character in the other case has the same line breaks. -/
theorem forall_not_mem_initial_iff {change : List Char → List Char}
    (within : breaks ⊆ lineBreaks) (nil : change [] = [])
    (stays : ∀ c ∈ lineBreaks, change [c] = [c])
    (old : ∀ c, ∀ d ∈ lineBreaks, d ∈ change [c] → d = c) :
    (∀ d ∈ change (name.take 1) ++ name.drop 1, d ∉ breaks) ↔ ∀ d ∈ name, d ∉ breaks := by
  cases name with
  | nil => simp [nil]
  | cons c rest =>
      show (∀ d ∈ change [c] ++ rest, d ∉ breaks) ↔ _
      rw [List.forall_mem_append, List.forall_mem_cons]
      refine and_congr_left fun _ => ⟨fun all broken => ?_, fun unbroken d member broken => ?_⟩
      · rw [stays c (within broken), List.forall_mem_singleton] at all
        exact all broken
      · rw [old c d (within broken) member] at broken
        exact unbroken broken

theorem not_mem_of_mem_snakeCase (within : breaks ⊆ lineBreaks) :
    ∀ d ∈ snakeCase name, d ∉ breaks := fun _ member broken =>
  Bool.false_ne_true ((not_isSeparator_of_mem_snakeCase member).symm.trans
    (isSeparator_of_mem_lineBreaks (within broken)))

theorem underscore_not_mem (within : breaks ⊆ lineBreaks) : '_' ∉ breaks := fun broken =>
  absurd (within broken) (by decide)

namespace Style

/-- The suffix of a method has line breaks only in camel case, and then those of the name. -/
theorem unbroken_methodSuffix_iff (within : breaks ⊆ lineBreaks) (style : Style) :
    (∀ d ∈ style.methodSuffix name, d ∉ breaks) ↔ (style = camel → ∀ d ∈ name, d ∉ breaks) := by
  cases style with
  | snake =>
      refine iff_of_true ?_ nofun
      exact List.forall_mem_cons.mpr ⟨underscore_not_mem within, not_mem_of_mem_snakeCase within⟩
  | camel =>
      rw [methodSuffix, forall_not_mem_initial_iff within rfl
        (fun c h => (cases_of_mem_lineBreaks h).2) fun c d => eq_of_mem_upper]
      simp

theorem forall_not_mem_safeName_iff (within : breaks ⊆ lineBreaks) :
    (∀ d ∈ safeName name, d ∉ breaks) ↔ ∀ d ∈ name, d ∉ breaks := by
  unfold safeName
  split
  · rw [List.forall_mem_append, List.forall_mem_singleton]
    exact and_iff_left (underscore_not_mem within)
  · rfl

theorem unbroken_variableName_iff (within : breaks ⊆ lineBreaks) (style : Style) :
    (∀ d ∈ style.variableName name, d ∉ breaks) ↔ (style = camel → ∀ d ∈ name, d ∉ breaks) := by
  cases style with
  | snake =>
      rw [variableName, forall_not_mem_safeName_iff within]
      exact iff_of_true (not_mem_of_mem_snakeCase within) nofun
  | camel =>
      rw [variableName, forall_not_mem_safeName_iff within, forall_not_mem_initial_iff within rfl
        (fun c h => (cases_of_mem_lineBreaks h).1) fun c d => eq_of_mem_lower]
      simp

end Style

end Preferences.Naming

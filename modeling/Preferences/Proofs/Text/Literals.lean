import Mathlib.Data.Bool.AllAny
import Mathlib.Data.List.Basic
import Mathlib.Tactic.NormNum
import Mathlib.Tactic.Ring
import Mathlib.Tactic.SplitIfs
import Preferences.Toml.Quotation
import Preferences.Value.Text

/-! # Reading literals back

A literal of the generated code is read as any string between two marks is: up to the closing mark,
with a backslash in front of a character that stands for another one or in front of the code of one.
`readLiteral?` is such a reader.  It takes from the front of a line exactly the literal that stands
there and gives the text that the literal was written for (`readLiteral?_literal`), so two texts
never have the same literal. -/

namespace Preferences.Text

open Toml (hexValue? ofCode? prepend)

/-! ### The reader -/

/-- What a backslash begins. -/
inductive Escape
  /-- A character that stands for one. -/
  | char (c : Char)
  /-- A character code with this number of hexadecimal digits. -/
  | code (digits : Nat)
  deriving DecidableEq

/-- What the character behind a backslash begins, if it begins anything. -/
def escape? : Char → Option Escape
  | '\\' => some (.char '\\')
  | '\'' => some (.char '\'')
  | '"' => some (.char '"')
  | 'n' => some (.char '\n')
  | 'r' => some (.char '\r')
  | 't' => some (.char '\t')
  | 'x' => some (.code 2)
  | 'u' => some (.code 4)
  | 'U' => some (.code 8)
  | _ => none

/-- Where the reader of a literal is. -/
inductive Place
  /-- Between characters. -/
  | between
  /-- Behind a backslash. -/
  | escape
  /-- In a character code that lacks this many digits. -/
  | code (missing value : Nat)

/-- Reads a literal from behind its opening mark: its text, and what stands behind its closing mark.
A literal does not go on behind the end of a line. -/
def readUpTo? (mark : Char) : Place → List Char → Option (List Char × List Char)
  | _, [] => none
  | .between, c :: rest =>
    if c = mark then some ([], rest)
    else if c = '\\' then readUpTo? mark .escape rest
    else if c = '\n' || c = '\r' then none
    else (readUpTo? mark .between rest).map (prepend c)
  | .escape, c :: rest =>
    match escape? c with
    | some (.char d) => (readUpTo? mark .between rest).map (prepend d)
    | some (.code digits) => readUpTo? mark (.code digits 0) rest
    | none => none
  | .code missing value, c :: rest =>
    match hexValue? c with
    | some digit =>
      if missing ≤ 1 then
        match ofCode? (16 * value + digit) with
        | some d => (readUpTo? mark .between rest).map (prepend d)
        | none => none
      else readUpTo? mark (.code (missing - 1) (16 * value + digit)) rest
    | none => none

/-- Reads the literal at the front of a line.  Three marks begin a text of another kind. -/
def readLiteral? : List Char → Option (List Char × List Char)
  | [] => none
  | mark :: rest =>
    if mark ≠ '"' ∧ mark ≠ '\'' then none
    else if rest.take 2 = [mark, mark] then none
    else readUpTo? mark .between rest

/-! ### Character codes -/

theorem hexValue?_hexDigit : ∀ n < 16, hexValue? (hexDigit n) = some n := by
  decide

theorem ofCode?_toNat (c : Char) : ofCode? c.toNat = some c := by
  have valid : c.toNat.isValidChar := c.valid
  rw [ofCode?, if_pos valid, Char.ofNat_toNat]

theorem hexDigits_succ (width n : Nat) :
    hexDigits (width + 1) n = hexDigit (n / 16 ^ width % 16) :: hexDigits width n := by
  induction width generalizing n with
  | zero => simp [hexDigits]
  | succ width ih =>
      have last : hexDigits (width + 1) n = hexDigits width (n / 16) ++ [hexDigit (n % 16)] := rfl
      rw [hexDigits, ih, last, Nat.div_div_eq_div_mul, ← Nat.pow_succ']
      rfl

theorem mem_hexDigits {width n : Nat} {c : Char} (h : c ∈ hexDigits width n) :
    ∃ digit < 16, c = hexDigit digit := by
  induction width generalizing n with
  | zero => cases h
  | succ width ih =>
      rw [hexDigits_succ, List.mem_cons] at h
      rcases h with rfl | h
      · exact ⟨_, Nat.mod_lt _ (by decide), rfl⟩
      · exact ih h

section codes
variable (mark : Char) (rest : List Char)

/-- Digits are read as the number that they are the last digits of. -/
theorem readUpTo?_hexDigits (width value n : Nat) {c : Char}
    (code : ofCode? (value * 16 ^ (width + 1) + n % 16 ^ (width + 1)) = some c) :
    readUpTo? mark (.code (width + 1) value) (hexDigits (width + 1) n ++ rest) =
      (readUpTo? mark .between rest).map (prepend c) := by
  induction width generalizing value with
  | zero =>
      have digit := hexValue?_hexDigit (n % 16) (Nat.mod_lt _ (by decide))
      have one : hexDigits 1 n ++ rest = hexDigit (n % 16) :: rest := rfl
      rw [one, readUpTo?, digit]
      rw [Nat.zero_add, Nat.pow_one, Nat.mul_comm] at code
      simp [code]
  | succ width ih =>
      have digit := hexValue?_hexDigit (n / 16 ^ (width + 1) % 16) (Nat.mod_lt _ (by decide))
      have more : ¬ width + 1 + 1 ≤ 1 := by omega
      rw [hexDigits_succ, List.cons_append, readUpTo?, digit]
      dsimp only
      rw [if_neg more]
      refine ih _ ?_
      rw [← code, Nat.pow_succ 16 (width + 1), Nat.mod_mul]
      congr 1
      ring

theorem readUpTo?_codeEscape (other : '\\' ≠ mark) (c : Char) :
    readUpTo? mark .between (codeEscape c.toNat ++ rest) =
      (readUpTo? mark .between rest).map (prepend c) := by
  have bound : c.toNat < 0x110000 := by
    have := c.valid
    unfold UInt32.isValidChar Nat.isValidChar at this
    unfold Char.toNat
    omega
  have escaped : ∀ (letter : Char) (width : Nat), escape? letter = some (.code (width + 1)) →
      c.toNat < 16 ^ (width + 1) →
      readUpTo? mark .between ('\\' :: letter :: (hexDigits (width + 1) c.toNat ++ rest)) =
        (readUpTo? mark .between rest).map (prepend c) := by
    intro letter width known fits
    have code : ofCode? (0 * 16 ^ (width + 1) + c.toNat % 16 ^ (width + 1)) = some c := by
      rw [Nat.zero_mul, Nat.zero_add, Nat.mod_eq_of_lt fits, ofCode?_toNat]
    rw [readUpTo?, if_neg other, if_pos rfl, readUpTo?, known]
    exact readUpTo?_hexDigits mark rest width 0 _ code
  unfold codeEscape
  split_ifs with two four
  · exact escaped 'x' 1 rfl two
  · exact escaped 'u' 3 rfl four
  · exact escaped 'U' 7 rfl (by norm_num; omega)

end codes

/-! ### Printable characters -/

/-- The two marks that literals are written with. -/
def marks : List Char := ['"', '\'']

def lineBreaks : List Char :=
  ['\n', '\x0b', '\x0c', '\r', '\x1c', '\x1d', '\x1e', '\x85', '\u2028', '\u2029']

theorem isPrintable_of_mem_lineBreaks : ∀ c ∈ lineBreaks, isPrintable c = false := by
  have all : lineBreaks.all (!isPrintable ·) = true := by decide +kernel
  simpa only [List.all_eq_true, Bool.not_eq_true'] using all

theorem isPrintable_of_toNat {c : Char} (sign : 32 ≤ c.toNat ∧ c.toNat ≤ 126) :
    isPrintable c = true := by
  have apart : unprintable.all (fun range => range.2 < 32 || 126 < range.1) = true := by
    decide +kernel
  rw [isPrintable, Bool.not_eq_true', CodeRanges.has, List.any_eq_false]
  intro range member
  have outside := List.all_eq_true.mp apart range member
  simp only [Bool.or_eq_true, Bool.and_eq_true, decide_eq_true_eq] at outside ⊢
  omega

theorem isPrintable_of_mem_marks : ∀ mark ∈ marks, isPrintable mark = true := by
  have signs : ∀ mark ∈ marks, 32 ≤ mark.toNat ∧ mark.toNat ≤ 126 :=
    List.all_iff_forall_prop.mp (by decide)
  exact fun mark known => isPrintable_of_toNat (signs mark known)

theorem isPrintable_escaping :
    ∀ c ∈ ['\\', 'n', 'r', 't', 'x', 'u', 'U'], isPrintable c = true := by
  have signs : ∀ c ∈ ['\\', 'n', 'r', 't', 'x', 'u', 'U'], 32 ≤ c.toNat ∧ c.toNat ≤ 126 :=
    List.all_iff_forall_prop.mp (by decide)
  exact fun c known => isPrintable_of_toNat (signs c known)

theorem isPrintable_hexDigit : ∀ n < 16, isPrintable (hexDigit n) = true := by
  have signs : ∀ n < 16, 32 ≤ (hexDigit n).toNat ∧ (hexDigit n).toNat ≤ 126 := by decide
  exact fun n small => isPrintable_of_toNat (signs n small)

theorem isPrintable_of_mem_codeEscape {n : Nat} {c : Char} (h : c ∈ codeEscape n) :
    isPrintable c = true := by
  have coded : ∀ letter ∈ ['x', 'u', 'U'], ∀ width,
      c ∈ '\\' :: letter :: hexDigits width n → isPrintable c = true := by
    intro letter known width hc
    rw [List.mem_cons, List.mem_cons] at hc
    rcases hc with rfl | rfl | hc
    · exact isPrintable_escaping _ (by decide)
    · have among : ['x', 'u', 'U'] ⊆ ['\\', 'n', 'r', 't', 'x', 'u', 'U'] := by decide
      exact isPrintable_escaping _ (among known)
    · obtain ⟨digit, small, rfl⟩ := mem_hexDigits hc
      exact isPrintable_hexDigit digit small
  unfold codeEscape at h
  split_ifs at h
  · exact coded 'x' (by decide) 2 h
  · exact coded 'u' (by decide) 4 h
  · exact coded 'U' (by decide) 8 h

/-! ### Characters -/

section characters
variable {mark : Char}

theorem escape?_of_mem_marks : ∀ mark ∈ marks, escape? mark = some (.char mark) := by
  simp [marks, escape?]

theorem backslash_ne_of_mem_marks : ∀ mark ∈ marks, '\\' ≠ mark := by
  simp [marks]

/-- Whatever a character is written as between two marks, it is read as the character. -/
theorem readUpTo?_escapeChar (h : mark ∈ marks) (c : Char) (rest : List Char) :
    readUpTo? mark .between (escapeChar mark c ++ rest) =
      (readUpTo? mark .between rest).map (prepend c) := by
  have other := backslash_ne_of_mem_marks _ h
  have escaped : ∀ letter, escape? letter = some (.char c) →
      readUpTo? mark .between ('\\' :: letter :: rest) =
        (readUpTo? mark .between rest).map (prepend c) := by
    intro letter known
    rw [readUpTo?, if_neg other, if_pos rfl, readUpTo?, known]
  unfold escapeChar
  split_ifs with special line back tab plain
  · rw [Bool.or_eq_true, decide_eq_true_eq, decide_eq_true_eq] at special
    rcases special with rfl | rfl
    · exact escaped _ (escape?_of_mem_marks _ h)
    · exact escaped _ rfl
  · subst line
    exact escaped 'n' rfl
  · subst back
    exact escaped 'r' rfl
  · subst tab
    exact escaped 't' rfl
  · rw [Bool.or_eq_true, decide_eq_true_eq, decide_eq_true_eq, not_or] at special
    have same_line : ¬ (decide (c = '\n') || decide (c = '\r')) = true := by simp [line, back]
    rw [List.singleton_append, readUpTo?, if_neg special.1, if_neg special.2, if_neg same_line]
  · exact readUpTo?_codeEscape mark rest other c

theorem readUpTo?_enclosed (h : mark ∈ marks) (s rest : List Char) :
    readUpTo? mark .between (s.flatMap (escapeChar mark) ++ mark :: rest) = some (s, rest) := by
  induction s with
  | nil => simp [readUpTo?]
  | cons c s ih =>
      rw [List.flatMap_cons, List.append_assoc, readUpTo?_escapeChar h, ih]
      rfl

/-- A character is written as it is, if it is printable and not the mark, or with a backslash in
front; in both cases only printable characters are written. -/
theorem escapeChar_cases (h : mark ∈ marks) (c : Char) :
    (escapeChar mark c = [c] ∧ c ≠ mark ∨ (escapeChar mark c).head? = some '\\') ∧
      ∀ d ∈ escapeChar mark c, isPrintable d = true := by
  have backslash : isPrintable '\\' = true := isPrintable_escaping _ (by decide)
  have escaped : ∀ d, isPrintable d = true → ∀ e ∈ ['\\', d], isPrintable e = true := by
    intro d printable
    rw [List.forall_mem_cons, List.forall_mem_singleton]
    exact ⟨backslash, printable⟩
  unfold escapeChar
  split_ifs with special line back tab plain
  · refine ⟨Or.inr rfl, escaped c ?_⟩
    rw [Bool.or_eq_true, decide_eq_true_eq, decide_eq_true_eq] at special
    rcases special with rfl | rfl
    · exact isPrintable_of_mem_marks _ h
    · exact backslash
  · exact ⟨Or.inr rfl, escaped 'n' (isPrintable_escaping _ (by decide))⟩
  · exact ⟨Or.inr rfl, escaped 'r' (isPrintable_escaping _ (by decide))⟩
  · exact ⟨Or.inr rfl, escaped 't' (isPrintable_escaping _ (by decide))⟩
  · rw [Bool.or_eq_true, decide_eq_true_eq, decide_eq_true_eq, not_or] at special
    exact ⟨Or.inl ⟨rfl, special.1⟩, List.forall_mem_singleton.mpr plain⟩
  · refine ⟨Or.inr ?_, fun d hd => isPrintable_of_mem_codeEscape hd⟩
    unfold codeEscape
    split_ifs <;> rfl

theorem head?_escapeChar_ne (h : mark ∈ marks) (c : Char) (rest : List Char) :
    (escapeChar mark c ++ rest).head? ≠ some mark := by
  rcases (escapeChar_cases h c).1 with ⟨same, other⟩ | backslash
  · rw [same]
    simpa using other
  · rw [List.head?_append, backslash]
    simpa using backslash_ne_of_mem_marks _ h

theorem isPrintable_of_mem_enclose (h : mark ∈ marks) {s : List Char} {c : Char}
    (hc : c ∈ enclose mark s) : isPrintable c = true := by
  rw [enclose, List.mem_cons, List.mem_append, List.mem_flatMap, List.mem_singleton] at hc
  rcases hc with rfl | ⟨d, -, hd⟩ | rfl
  · exact isPrintable_of_mem_marks _ h
  · exact (escapeChar_cases h d).2 c hd
  · exact isPrintable_of_mem_marks _ h

/-- What stands between two marks is read back, unless nothing does and a third mark follows. -/
theorem readLiteral?_enclose (h : mark ∈ marks) (s rest : List Char)
    (ends : s = [] → rest.head? ≠ some mark) :
    readLiteral? (enclose mark s ++ rest) = some (s, rest) := by
  have known : ¬ (mark ≠ '"' ∧ mark ≠ '\'') := by
    have either : mark = '"' ∨ mark = '\'' := by simpa [marks] using h
    rcases either with rfl | rfl <;> decide
  have enclosed : enclose mark s ++ rest =
      mark :: (s.flatMap (escapeChar mark) ++ mark :: rest) := by
    simp [enclose]
  have single : (s.flatMap (escapeChar mark) ++ mark :: rest).take 2 ≠ [mark, mark] := by
    cases s with
    | nil =>
        intro three
        cases rest with
        | nil => cases three
        | cons c rest =>
            have third : c = mark := by simpa using three
            exact ends rfl (by rw [third]; rfl)
    | cons c s =>
        rw [List.flatMap_cons, List.append_assoc]
        intro three
        have first := congrArg List.head? three
        rw [List.head?_take, if_neg (by decide)] at first
        exact head?_escapeChar_ne h c _ first
  rw [enclosed, readLiteral?, if_neg known, if_neg single, readUpTo?_enclosed h]

end characters

/-! ### Literals -/

theorem escapeChar_of_ne {c mark other : Char} (h : c ≠ mark) (h' : c ≠ other) :
    escapeChar mark c = escapeChar other c := by
  unfold escapeChar
  rw [decide_eq_false h, decide_eq_false h']

/-- Where neither mark is in the text, the marks can be changed afterwards. -/
theorem enclose_of_not_mem {s : List Char} {mark other : Char} (h : mark ∉ s) (h' : other ∉ s) :
    other :: (enclose mark s).tail.dropLast ++ [other] = enclose other s := by
  have same : s.flatMap (escapeChar mark) = s.flatMap (escapeChar other) :=
    List.flatMap_congr fun c hc =>
      escapeChar_of_ne (fun e => h (e ▸ hc)) fun e => h' (e ▸ hc)
  rw [enclose, enclose, List.tail_cons, List.dropLast_concat, same, List.cons_append]

/-- A literal stands between double marks, or single ones if the text holds a double mark. -/
theorem literal_eq (s : List Char) :
    literal s = if s.contains '"' then enclose '\'' s else enclose '"' s := by
  unfold literal quote
  by_cases double : '"' ∈ s
  · simp [double]
  · by_cases single : '\'' ∈ s
    · simp [double, single, enclose]
    · simpa [double, single, enclose] using enclose_of_not_mem single double

theorem literal_eq_enclose (s : List Char) :
    ∃ mark ∈ marks, literal s = enclose mark s ∧ (s = [] → mark = '"') := by
  rw [literal_eq]
  split_ifs with holds
  · refine ⟨'\'', by decide, rfl, ?_⟩
    rintro rfl
    cases holds
  · exact ⟨'"', by decide, rfl, fun _ => rfl⟩

/-- **Literals are read back.**  Of a line that begins with the literal of a text, exactly the
literal is read, and it is read as the text, unless the next character is a double mark.  A literal
holds printable characters only, so no line breaks, and different texts have different literals. -/
theorem readLiteral?_literal (t : String) (rest : List Char) (ends : rest.head? ≠ some '"') :
    readLiteral? ((Value.text t).literal.toList ++ rest) = some (t.toList, rest) ∧
    (∀ c ∈ (Value.text t).literal.toList, isPrintable c = true ∧ c ∉ lineBreaks) ∧
    ∀ other : String, (Value.text other).literal = (Value.text t).literal → other = t := by
  have read : ∀ t : String, ∀ rest : List Char, rest.head? ≠ some '"' →
      readLiteral? ((Value.text t).literal.toList ++ rest) = some (t.toList, rest) := by
    intro t rest ends
    obtain ⟨mark, known, same, empty⟩ := literal_eq_enclose t.toList
    rw [Value.literal, String.toList_ofList, same]
    exact readLiteral?_enclose known _ _ fun none => empty none ▸ ends
  refine ⟨read t rest ends, fun c hc => ?_, fun other same => ?_⟩
  · obtain ⟨mark, known, same, -⟩ := literal_eq_enclose t.toList
    rw [Value.literal, String.toList_ofList, same] at hc
    have printable := isPrintable_of_mem_enclose known hc
    refine ⟨printable, fun breaks => ?_⟩
    rw [isPrintable_of_mem_lineBreaks c breaks] at printable
    cases printable
  · have own := read other [] nofun
    rw [same, read t [] nofun] at own
    exact String.toList_inj.mp (Prod.mk.inj (Option.some.inj own)).1.symm

/-- A text with both marks, a line break, a backslash and an unprintable character. -/
theorem readLiteral?_literal_mixed :
    readLiteral? ((Value.text "'\"\n\\\u00ad").literal.toList ++ [',', ' ', '0', ')']) =
      some (['\'', '"', '\n', '\\', '\u00ad'], [',', ' ', '0', ')']) :=
  (readLiteral?_literal "'\"\n\\\u00ad" [',', ' ', '0', ')'] (by decide)).1

end Preferences.Text

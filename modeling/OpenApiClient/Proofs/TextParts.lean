import OpenApiClient.Text.Basic
import OpenApiClient.Text.Digit
import Mathlib.Algebra.Group.Nat.Defs
import Mathlib.Data.List.Basic

/-! # Parts of a text

A text is cut into fields at one character and put together from them again. Digits write a number
unless there are too many of them or one of them has no value, and every number up to that length is
read back from its digits. -/
namespace OpenApiClient.Text

variable {p : Char → Bool} {cs rest : List Char}

/-! ## Fields -/

theorem fields_eq_singleton (h : ∀ c ∈ cs, p c = false) : fields p cs = [cs] := by
  induction cs with
  | nil => rfl
  | cons c rest ih =>
    obtain ⟨hc, hrest⟩ := List.forall_mem_cons.mp h
    simp only [fields, hc, ih hrest, Bool.false_eq_true, if_false]

theorem fields_append {c : Char} (cs rest : List Char) (h : ∀ d ∈ cs, p d = false)
    (hc : p c = true) : fields p (cs ++ c :: rest) = cs :: fields p rest := by
  induction cs with
  | nil => simp [fields, hc]
  | cons d cs ih =>
    obtain ⟨hd, hcs⟩ := List.forall_mem_cons.mp h
    simp only [List.cons_append, fields, hd, ih hcs, Bool.false_eq_true, if_false]

theorem intercalate_fields (separator : Char) (cs : List Char) :
    List.intercalate [separator] (fields (· == separator) cs) = cs := by
  induction cs with
  | nil => rfl
  | cons c rest ih =>
    cases hfields : fields (· == separator) rest with
    | nil => exact absurd hfields (fields_ne_nil _ _)
    | cons first others =>
      rw [hfields] at ih
      rw [fields, hfields, ← ih]
      by_cases hc : c = separator
      · simp [hc, List.intercalate]
      · have hc' : (c == separator) = false := by simpa using hc
        cases others <;> simp [hc', List.intercalate]

/-- Parts without the separator are the fields of the text that they are joined to. -/
theorem fields_intercalate {separator : Char} {parts : List (List Char)} (hne : parts ≠ [])
    (h : ∀ part ∈ parts, separator ∉ part) :
    fields (· == separator) (List.intercalate [separator] parts) = parts := by
  have hplain : ∀ part ∈ parts, ∀ c ∈ part, (c == separator) = false := by
    intro part hpart c hc
    simpa using fun heq : c = separator => h part hpart (heq ▸ hc)
  induction parts with
  | nil => exact absurd rfl hne
  | cons part parts ih =>
    obtain ⟨hpart, hparts⟩ := List.forall_mem_cons.mp hplain
    cases parts with
    | nil => simpa [List.intercalate] using fields_eq_singleton hpart
    | cons next more =>
      have hlater := ih (by simp) (fun q hq => h q (List.mem_cons_of_mem _ hq)) hparts
      have hjoined : List.intercalate [separator] (part :: next :: more) =
          part ++ separator :: List.intercalate [separator] (next :: more) := by
        simp [List.intercalate]
      rw [hjoined, fields_append _ _ hpart (by simp), hlater]

/-- The last field of a text is what follows a separator without another one. -/
theorem lastField_append {separator : Char} {start ending : String}
    (h : separator ∉ ending.toList) (hstart : start.toList.getLast? = some separator) :
    lastField separator (start ++ ending) = ending := by
  obtain ⟨init, hinit⟩ := List.getLast?_eq_some_iff.mp hstart
  have hplain : ∀ c ∈ ending.toList.reverse, (c != separator) = true := by
    intro c hc
    simpa using fun heq : c = separator => h (heq ▸ List.mem_reverse.mp hc)
  simp [lastField, hinit, List.takeWhile_append_of_pos hplain]

/-! ## Numbers -/

theorem decimalDigit?_of_isDigit {c : Char} (h : c.isDigit) :
    decimalDigit? c = some (c.toNat - '0'.toNat) := by
  obtain ⟨hlow, hhigh⟩ : 0x30 ≤ c.toNat ∧ c.toNat ≤ 0x39 := by
    simpa [Char.isDigit, UInt32.le_iff_toNat_le] using h
  have hnot : ¬ c.toNat < 0x30 := by omega
  have hsmall : c.toNat - 48 < 10 := by omega
  simp [decimalDigit?, decimalIntervals, digitIn, hnot, hhigh, Nat.mod_eq_of_lt hsmall]

theorem foldlM_digits_eq_none_iff (n : Nat) :
    cs.foldlM (fun n c => (decimalDigit? c).map (n * 10 + ·)) n = none ↔
      ∃ c ∈ cs, decimalDigit? c = none := by
  induction cs generalizing n with
  | nil => simp
  | cons c cs ih =>
    cases hc : decimalDigit? c with
    | none => simp [hc]
    | some d => simp [hc, ih]

/-- No number is read where there are too many digits, or a character is none. -/
theorem readDigits?_eq_none_iff :
    readDigits? cs = none ↔ digitLimit < cs.length ∨ ∃ c ∈ cs, decimalDigit? c = none := by
  rw [readDigits?]
  split
  · rename_i hlong
    simp [hlong]
  · rename_i hshort
    rw [foldlM_digits_eq_none_iff]
    simp [hshort]

private theorem foldlM_digits (h : ∀ c ∈ cs, c.isDigit) (n : Nat) :
    cs.foldlM (fun n c => (decimalDigit? c).map (n * 10 + ·)) n =
      some (Nat.ofDigitChars 10 cs n) := by
  induction cs generalizing n with
  | nil => simp
  | cons c cs ih =>
    obtain ⟨hc, hcs⟩ := List.forall_mem_cons.mp h
    simp [decimalDigit?_of_isDigit hc, ih hcs, Nat.ofDigitChars_cons, Nat.mul_comm]

theorem readDigits?_toDigits (n : Nat) :
    readDigits? (Nat.toDigits 10 n) = if n < 10 ^ digitLimit then some n else none := by
  have hlength : (Nat.toDigits 10 n).length ≤ digitLimit ↔ n < 10 ^ digitLimit :=
    Nat.length_toDigits_le_iff (by decide) (by decide)
  have hdigits : ∀ c ∈ Nat.toDigits 10 n, c.isDigit :=
    fun _ hc => Nat.isDigit_of_mem_toDigits (by decide) (by decide) hc
  rw [readDigits?, foldlM_digits hdigits, Nat.ofDigitChars_ten_toDigits]
  by_cases hn : n < 10 ^ digitLimit
  · rw [if_pos hn, if_neg (Nat.not_lt.mpr (hlength.mpr hn))]
  · rw [if_neg hn, if_pos (Nat.not_le.mp (mt hlength.mp hn))]

end OpenApiClient.Text

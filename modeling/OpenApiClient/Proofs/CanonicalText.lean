import OpenApiClient.Document.Canonical
import OpenApiClient.Document.Json
import OpenApiClient.Proofs.DecimalText
import Std.Data.String.ToInt

/-! # Canonical texts of scalars

The canonical text of a scalar can be read back: that of a text ends at its closing quote and gives
the units of its characters, and that of any other scalar ends where a comma or a bracket stands. So
scalars that are written alike are the same. -/
namespace OpenApiClient

namespace Text

def charUnits (c : Char) : List Nat :=
  if c.toNat < 0x10000 then [c.toNat]
  else [0xd800 + (c.toNat - 0x10000) / 0x400, 0xdc00 + (c.toNat - 0x10000) % 0x400]

private theorem readHex?_hexDigits {n : Nat} (h : n < 0x10000) :
    Json.readHex? (hexDigits 4 n) = some n := by
  have hdigit : ∀ d, d < 16 → Json.hexValue? (hexDigit d) = some d := by decide
  simp only [hexDigits, List.nil_append, List.cons_append, Json.readHex?, List.foldlM_cons,
    List.foldlM_nil]
  rw [hdigit _ (Nat.mod_lt _ (by omega)), hdigit _ (Nat.mod_lt _ (by omega)),
    hdigit _ (Nat.mod_lt _ (by omega)), hdigit _ (Nat.mod_lt _ (by omega))]
  simp only [Option.map_some, Option.bind_eq_bind, Option.bind_some, Option.pure_def,
    Option.some.injEq]
  omega

def withUnits (units : List Nat) : Option (List Nat × List Char) → Option (List Nat × List Char) :=
  Option.map fun read => (units ++ read.1, read.2)

private theorem stringUnits_unitEscape {n : Nat} (h : n < 0x10000) (rest : List Char) :
    Json.stringUnits (unitEscape n ++ rest) = withUnits [n] (Json.stringUnits rest) := by
  have hread := readHex?_hexDigits h
  simp only [unitEscape, hexDigits, List.nil_append, List.cons_append] at hread ⊢
  rw [Json.stringUnits, hread]
  cases Json.stringUnits rest <;> rfl

/-- The number of a character is below the upper bound, and no half of a pair. -/
theorem toNat_valid (c : Char) :
    c.toNat < 0xd800 ∨ (0xdfff < c.toNat ∧ c.toNat < 0x110000) := c.valid

private theorem withUnits_append (us vs : List Nat) (read : Option (List Nat × List Char)) :
    withUnits us (withUnits vs read) = withUnits (us ++ vs) read := by
  cases read <;> simp [withUnits]

private theorem stringUnits_shortEscape {e c : Char} (he : Json.shortEscape? e = some c) (hu : e ≠ 'u')
    (rest : List Char) :
    Json.stringUnits ('\\' :: e :: rest) = withUnits [c.toNat] (Json.stringUnits rest) := by
  rw [Json.stringUnits, he]
  · cases Json.stringUnits rest <;> rfl
  · exact fun _ _ _ _ _ h _ => hu h

private theorem stringUnits_plain {c : Char} (hquote : c ≠ '"') (hslash : c ≠ '\\') (h : 0x20 ≤ c.toNat)
    (rest : List Char) :
    Json.stringUnits (c :: rest) = withUnits [c.toNat] (Json.stringUnits rest) := by
  rw [Json.stringUnits]
  · have hlow : ¬ c.toNat < 0x20 := by omega
    simp only [hslash, hlow, or_self, if_false]
    cases Json.stringUnits rest <;> rfl
  · exact hquote
  · exact fun a b d e rest h _ => hslash h
  · exact fun e rest h _ => hslash h

private theorem stringUnits_canonicalChar (c : Char) (rest : List Char) :
    Json.stringUnits (canonicalChar c ++ rest) =
      withUnits (charUnits c) (Json.stringUnits rest) := by
  by_cases hmark : c = '"' ∨ c = '\\'
  · rcases hmark with rfl | rfl
    · exact stringUnits_shortEscape rfl (by decide) rest
    · exact stringUnits_shortEscape rfl (by decide) rest
  obtain ⟨hquote, hslash⟩ := not_or.mp hmark
  by_cases hprint : 0x20 ≤ c.toNat ∧ c.toNat < 0x7f
  · have hunits : charUnits c = [c.toNat] := if_pos (by omega)
    rw [hunits, ← stringUnits_plain hquote hslash hprint.1]
    simp [canonicalChar, hquote, hslash, hprint]
  by_cases hescape : c = '\n' ∨ c = '\r' ∨ c = '\t' ∨ c = '\x0c' ∨ c = '\x08'
  · rcases hescape with rfl | rfl | rfl | rfl | rfl <;>
      exact stringUnits_shortEscape rfl (by decide) rest
  simp only [not_or] at hescape
  obtain ⟨hn, hr, ht, hf, hb⟩ := hescape
  by_cases hwide : c.toNat < 0x10000
  · have hunits : charUnits c = [c.toNat] := if_pos hwide
    rw [hunits, ← stringUnits_unitEscape hwide]
    simp [canonicalChar, hquote, hslash, hprint, hn, hr, ht, hf, hb, hwide]
  · have hvalid := toNat_valid c
    have hunits : charUnits c = [0xd800 + (c.toNat - 0x10000) / 0x400] ++
        [0xdc00 + (c.toNat - 0x10000) % 0x400] := if_neg hwide
    rw [hunits, ← withUnits_append, ← stringUnits_unitEscape (by omega),
      ← stringUnits_unitEscape (by omega)]
    simp [canonicalChar, hquote, hslash, hprint, hn, hr, ht, hf, hb, hwide]

private theorem unitChars_charUnits (cs : List Char) : Json.unitChars (cs.flatMap charUnits) = cs := by
  induction cs with
  | nil => rfl
  | cons c rest ih =>
    have hvalid := toNat_valid c
    rw [List.flatMap_cons]
    by_cases hwide : c.toNat < 0x10000
    · have hsingle : ¬ (0xd800 ≤ c.toNat ∧ c.toNat ≤ 0xdfff) := by omega
      have hhigh : ¬ (0xd800 ≤ c.toNat ∧ c.toNat ≤ 0xdbff) := by omega
      rw [charUnits, if_pos hwide, List.singleton_append]
      cases hunits : rest.flatMap charUnits with
      | nil =>
        rw [hunits] at ih
        rw [Json.unitChars, Text.ofCode, if_neg hsingle, Char.ofNat_toNat, ← ih]
        rfl
      | cons low more =>
        rw [hunits] at ih
        rw [Json.unitChars, if_neg (fun h => hhigh ⟨h.1, h.2.1⟩), Text.ofCode, if_neg hsingle,
          Char.ofNat_toNat, ih]
    · have hpair : 0xd800 ≤ 0xd800 + (c.toNat - 0x10000) / 0x400 ∧
          0xd800 + (c.toNat - 0x10000) / 0x400 ≤ 0xdbff ∧
          0xdc00 ≤ 0xdc00 + (c.toNat - 0x10000) % 0x400 ∧
          0xdc00 + (c.toNat - 0x10000) % 0x400 ≤ 0xdfff := by omega
      have hvalue : 0x10000 + (0xd800 + (c.toNat - 0x10000) / 0x400 - 0xd800) * 0x400 +
          (0xdc00 + (c.toNat - 0x10000) % 0x400 - 0xdc00) = c.toNat := by omega
      rw [charUnits, if_neg hwide, List.cons_append, List.singleton_append, Json.unitChars,
        if_pos hpair, hvalue, Char.ofNat_toNat, ih]

/-- A written text is read as its units, up to its closing quote. -/
theorem stringUnits_canonical (cs rest : List Char) :
    Json.stringUnits (cs.flatMap canonicalChar ++ '"' :: rest) =
      some (cs.flatMap charUnits, rest) := by
  induction cs with
  | nil => rfl
  | cons c cs ih =>
    rw [List.flatMap_cons, List.append_assoc, stringUnits_canonicalChar, ih]
    rfl

theorem toList_canonical (s : String) :
    (canonical s).toList = '"' :: (s.toList.flatMap canonicalChar ++ ['"']) := by
  simp [canonical]

theorem canonical_append_inj {s t : String} {r r' : List Char}
    (h : (canonical s).toList ++ r = (canonical t).toList ++ r') : s = t ∧ r = r' := by
  simp only [toList_canonical, List.cons_append, List.append_assoc, List.nil_append,
    List.cons.injEq, true_and] at h
  have hread := stringUnits_canonical s.toList r
  rw [h, stringUnits_canonical] at hread
  obtain ⟨hunits, hrest⟩ := Prod.mk.inj (Option.some.inj hread)
  have hchars := congrArg Json.unitChars hunits
  rw [unitChars_charUnits, unitChars_charUnits] at hchars
  exact ⟨(String.toList_inj.mp hchars).symm, hrest.symm⟩

end Text

namespace Scalar

def isPlainChar (c : Char) : Bool := c.isAlphanum || c == '.' || c == '-' || c == '+'

private theorem isPlainChar_of_isNumberChar {c : Char} (h : Decimal.isNumberChar c) :
    isPlainChar c := by
  simp only [Decimal.isNumberChar, Bool.or_eq_true, beq_iff_eq] at h
  rcases h with (((h | rfl) | rfl) | rfl) | rfl
  · simp [isPlainChar, Char.isAlphanum, h]
  · rfl
  · rfl
  · rfl
  · rfl

theorem mem_toString_int {n : Int} {c : Char} (h : c ∈ (toString n).toList) :
    c.isDigit ∨ c = '-' := by
  rw [Int.toString_eq_repr] at h
  cases n with
  | ofNat m =>
    rw [Int.repr, Nat.toList_repr] at h
    exact .inl (Nat.isDigit_of_mem_toDigits (by decide) (by decide) h)
  | negSucc m =>
    rw [Int.repr, String.toList_append, Nat.toList_repr] at h
    rcases List.mem_append.mp h with h | h
    · exact .inr (by simpa using h)
    · exact .inl (Nat.isDigit_of_mem_toDigits (by decide) (by decide) h)

theorem mem_documentText {d : Decimal} {c : Char} (h : c ∈ d.documentText.toList) :
    Decimal.isNumberChar c ∨ c ∈ "InfinityNaN".toList := by
  cases d with
  | finite negative digits exponent hr =>
    rw [Decimal.toList_documentText] at h
    rcases List.mem_append.mp h with h | h
    · refine .inl ?_
      cases negative
      · simp at h
      · rw [List.mem_singleton.mp h]
        rfl
    · exact .inl (List.all_eq_true.mp (Decimal.isNumberChar_magnitudeText digits exponent) c h)
  | infinite negative =>
    cases negative
    · exact .inr (List.mem_append_left _ h)
    · rcases List.mem_cons.mp h with rfl | h
      · exact .inl rfl
      · exact .inr (List.mem_append_left "NaN".toList h)
  | nan => exact .inr (List.mem_append_right "Infinity".toList h)

theorem exists_mark_documentText (d : Decimal) :
    ∃ c ∈ d.documentText.toList, c ∈ ['.', 'e', 'n', 'N'] := by
  cases d with
  | finite negative digits exponent hr =>
    rw [Decimal.toList_documentText]
    rcases Decimal.exists_mark_magnitudeText digits exponent with h | h
    · exact ⟨'.', List.mem_append_right _ h, by decide⟩
    · exact ⟨'e', List.mem_append_right _ h, by decide⟩
  | infinite negative => exact ⟨'n', by cases negative <;> decide, by decide⟩
  | nan => exact ⟨'N', by decide, by decide⟩

theorem isPlainChar_canonical {s : Scalar} (h : ∀ t, s ≠ text t) :
    s.canonical.toList.all isPlainChar := by
  cases s with
  | null => decide
  | bool b => cases b <;> decide
  | int n =>
    refine List.all_eq_true.mpr fun c hc => ?_
    rcases mem_toString_int hc with hdigit | rfl
    · simp [isPlainChar, Char.isAlphanum, hdigit]
    · rfl
  | decimal d =>
    refine List.all_eq_true.mpr fun c hc => ?_
    rcases mem_documentText hc with hnumber | hword
    · exact isPlainChar_of_isNumberChar hnumber
    · have hall : "InfinityNaN".toList.all isPlainChar := by decide
      exact List.all_eq_true.mp hall c hword
  | text t => exact absurd rfl (h t)

theorem not_mem_toString_int (n : Int) {c : Char} (hc : c ∈ ['u', 'l', '.', 'e', 'n', 'N']) :
    c ∉ (int n).canonical.toList := by
  have hmarks : ∀ c ∈ ['u', 'l', '.', 'e', 'n', 'N'], c.isDigit = false ∧ c ≠ '-' := by
    simp [Char.isDigit]
  intro hmem
  rcases mem_toString_int hmem with hdigit | hsign
  · simp [(hmarks c hc).1] at hdigit
  · exact (hmarks c hc).2 hsign

theorem not_mem_documentText (d : Decimal) {c : Char} (hc : c ∈ ['u', 'l']) :
    c ∉ (decimal d).canonical.toList := by
  have hmarks : ∀ c ∈ ['u', 'l'], Decimal.isNumberChar c = false ∧ c ∉ "InfinityNaN".toList := by
    simp [Decimal.isNumberChar]
  intro hmem
  rcases mem_documentText hmem with hnumber | hword
  · simp [(hmarks c hc).1] at hnumber
  · exact (hmarks c hc).2 hword

def words : List Scalar := [null, bool true, bool false]

theorem exists_mark_words : ∀ w ∈ words, ∃ c ∈ ['u', 'l'], c ∈ w.canonical.toList := by
  simp only [words, List.mem_cons, List.not_mem_nil, or_false, forall_eq_or_imp, forall_eq,
    exists_eq_or_imp, exists_eq_left]
  decide

private theorem canonical_injective_words :
    ∀ v ∈ words, ∀ w ∈ words, v.canonical = w.canonical → v = w := by decide

private theorem words_ne_int {w : Scalar} (hw : w ∈ words) (n : Int) :
    w.canonical ≠ (int n).canonical := by
  obtain ⟨c, hc, hmem⟩ := exists_mark_words w hw
  exact fun h => not_mem_toString_int n (List.mem_append_left ['.', 'e', 'n', 'N'] hc) (h ▸ hmem)

private theorem words_ne_decimal {w : Scalar} (hw : w ∈ words) (d : Decimal) :
    w.canonical ≠ (decimal d).canonical := by
  obtain ⟨c, hc, hmem⟩ := exists_mark_words w hw
  exact fun h => not_mem_documentText d hc (h ▸ hmem)

private theorem int_ne_decimal (n : Int) (d : Decimal) : (int n).canonical ≠ (decimal d).canonical := by
  obtain ⟨c, hmem, hc⟩ := exists_mark_documentText d
  exact fun h => not_mem_toString_int n (List.mem_append_right ['u', 'l'] hc) (h ▸ hmem)

theorem mem_words_or {s : Scalar} (h : ∀ u, s ≠ text u) :
    s ∈ words ∨ (∃ n, s = int n) ∨ ∃ d, s = decimal d := by
  cases s with
  | null => exact .inl (by decide)
  | bool b => exact .inl (by cases b <;> decide)
  | int n => exact .inr (.inl ⟨n, rfl⟩)
  | decimal d => exact .inr (.inr ⟨d, rfl⟩)
  | text u => exact absurd rfl (h u)

/-- No scalar but a text is written with an `o`, as a key that is no shape is. -/
theorem not_mem_canonical {s : Scalar} (h : ∀ u, s ≠ text u) : 'o' ∉ s.canonical.toList := by
  have hwords : ∀ w ∈ words, 'o' ∉ w.canonical.toList := by decide
  rcases mem_words_or h with hs | ⟨n, rfl⟩ | ⟨d, rfl⟩
  · exact hwords s hs
  · intro hmem
    rcases mem_toString_int hmem with hdigit | hsign
    · exact absurd hdigit (by decide)
    · exact absurd hsign (by decide)
  · intro hmem
    rcases mem_documentText hmem with hnumber | hword
    · exact absurd hnumber (by decide)
    · exact absurd hword (by decide)

/-- Scalars other than texts are told apart by their texts. -/
theorem canonical_injective {s t : Scalar} (hs : ∀ u, s ≠ text u) (ht : ∀ u, t ≠ text u)
    (h : s.canonical = t.canonical) : s = t := by
  rcases mem_words_or hs with hs | ⟨n, rfl⟩ | ⟨d, rfl⟩
  · rcases mem_words_or ht with ht | ⟨n, rfl⟩ | ⟨d, rfl⟩
    · exact canonical_injective_words s hs t ht h
    · exact absurd h (words_ne_int hs n)
    · exact absurd h (words_ne_decimal hs d)
  · rcases mem_words_or ht with ht | ⟨m, rfl⟩ | ⟨d, rfl⟩
    · exact absurd h.symm (words_ne_int ht n)
    · exact congrArg int (Int.repr_injective h)
    · exact absurd h (int_ne_decimal n d)
  · rcases mem_words_or ht with ht | ⟨m, rfl⟩ | ⟨e, rfl⟩
    · exact absurd h.symm (words_ne_decimal ht d)
    · exact absurd h.symm (int_ne_decimal m d)
    · exact congrArg decimal (Decimal.documentText_injective h)

private theorem canonical_ne_nil (s : Scalar) : s.canonical.toList ≠ [] := by
  cases s with
  | null => decide
  | bool b => cases b <;> decide
  | int n =>
    intro h
    rw [canonical, Int.toString_eq_repr] at h
    cases n with
    | ofNat m =>
      rw [Int.repr, Nat.toList_repr] at h
      exact Nat.toDigits_ne_nil h
    | negSucc m => simp [Int.repr] at h
  | decimal d =>
    obtain ⟨c, hmem, -⟩ := exists_mark_documentText d
    exact List.ne_nil_of_mem hmem
  | text t => simp [canonical, Text.toList_canonical]

theorem canonical_head (s : Scalar) :
    ∃ c rest, s.canonical.toList = c :: rest ∧
      ((∃ t, s = text t) ∧ c = '"' ∨ (∀ t, s ≠ text t) ∧ isPlainChar c) := by
  by_cases ht : ∃ t, s = text t
  · obtain ⟨t, rfl⟩ := ht
    exact ⟨'"', _, Text.toList_canonical t, .inl ⟨⟨t, rfl⟩, rfl⟩⟩
  · have hplain : ∀ t, s ≠ text t := fun t h => ht ⟨t, h⟩
    have hall := isPlainChar_canonical hplain
    obtain ⟨c, rest, hlist⟩ := List.exists_cons_of_ne_nil (canonical_ne_nil s)
    rw [hlist, List.all_cons, Bool.and_eq_true] at hall
    exact ⟨c, rest, hlist, .inr ⟨hplain, hall.1⟩⟩

def Delimited (rest : List Char) : Prop := ∀ c more, rest = c :: more → isPlainChar c = false

private theorem takeWhile_plain {cs rest : List Char} (hcs : cs.all isPlainChar)
    (hrest : Delimited rest) :
    (cs ++ rest).takeWhile isPlainChar = cs := by
  rw [List.takeWhile_append_of_pos (List.all_eq_true.mp hcs)]
  cases rest with
  | nil => simp
  | cons c more => simp [hrest c more rfl]

theorem canonical_append_inj {s t : Scalar} {r r' : List Char} (hr : Delimited r)
    (hr' : Delimited r') (h : s.canonical.toList ++ r = t.canonical.toList ++ r') :
    s = t ∧ r = r' := by
  obtain ⟨c, rest, hs, hc⟩ := canonical_head s
  obtain ⟨d, rest', ht, hd⟩ := canonical_head t
  have hcd : c = d := by
    rw [hs, ht] at h
    exact (List.cons.inj h).1
  subst hcd
  rcases hc with ⟨⟨u, rfl⟩, rfl⟩ | ⟨hs', hplain⟩
  · rcases hd with ⟨⟨v, rfl⟩, -⟩ | ⟨-, hplain⟩
    · obtain ⟨rfl, hrest⟩ := Text.canonical_append_inj h
      exact ⟨rfl, hrest⟩
    · exact absurd hplain (by decide)
  · rcases hd with ⟨-, rfl⟩ | ⟨ht', -⟩
    · exact absurd hplain (by decide)
    · have hsame := congrArg (List.takeWhile isPlainChar) h
      rw [takeWhile_plain (isPlainChar_canonical hs') hr,
        takeWhile_plain (isPlainChar_canonical ht') hr'] at hsame
      obtain rfl := canonical_injective hs' ht' (String.toList_inj.mp hsame)
      exact ⟨rfl, List.append_cancel_left h⟩

end Scalar

end OpenApiClient

import OpenApiClient.Decimal.Basic
import Mathlib.Algebra.Group.Nat.Defs
import Mathlib.Data.List.TakeWhile

/-! # Reading a decimal text back

The text of a number gives back its digits and its exponent, whatever of the forms it is written
in: without the point the mantissa is the digits, the places behind the point lower the exponent,
and zeros at the end count for nothing. So two numbers never share a text. -/
namespace OpenApiClient

private theorem reduceDigits_mul_pow (digits k : Nat) (exponent : Int) :
    reduceDigits (digits * 10 ^ k) exponent = reduceDigits digits (exponent + k) := by
  induction k generalizing exponent with
  | zero => simp
  | succ k ih =>
    by_cases hzero : digits = 0
    · subst hzero
      simp [reduceDigits]
    · have hpos : digits * 10 ^ k ≠ 0 := Nat.mul_ne_zero hzero (by simp)
      have hsplit : digits * 10 ^ (k + 1) = digits * 10 ^ k * 10 := by
        rw [Nat.pow_succ, Nat.mul_assoc]
      rw [hsplit, reduceDigits, if_neg (by omega), if_pos (by omega),
        Nat.mul_div_cancel _ (by omega), ih]
      congr 1
      push_cast
      omega

namespace Decimal

def mantissa (cs : List Char) : List Char := cs.takeWhile (· != 'e')

def writtenExponent (cs : List Char) : Int :=
  match cs.dropWhile (· != 'e') with
  | 'e' :: '-' :: ds => -(Nat.ofDigitChars 10 ds 0 : Int)
  | 'e' :: '+' :: ds => Nat.ofDigitChars 10 ds 0
  | _ => 0

def places (cs : List Char) : Nat := (cs.dropWhile (· != '.')).length - 1

def readMagnitude (cs : List Char) : Nat × Int :=
  reduceDigits (Nat.ofDigitChars 10 ((mantissa cs).filter (· != '.')) 0)
    (writtenExponent cs - places (mantissa cs))

def AllDigits (cs : List Char) : Prop := ∀ c ∈ cs, c.isDigit

theorem allDigits_toDigits (n : Nat) : AllDigits (Nat.toDigits 10 n) :=
  fun _ h => Nat.isDigit_of_mem_toDigits (by decide) (by decide) h

theorem AllDigits.ne {cs : List Char} (h : AllDigits cs) {c : Char} (hc : c.isDigit = false) :
    ∀ d ∈ cs, d ≠ c := by
  rintro d hd rfl
  simp [h d hd] at hc

theorem AllDigits.filter {cs : List Char} (h : AllDigits cs) : cs.filter (· != '.') = cs :=
  List.filter_eq_self.mpr fun d hd => by simpa using h.ne (by decide) d hd

theorem allDigits_replicate (n : Nat) : AllDigits (List.replicate n '0') := by
  intro c hc
  rw [List.eq_of_mem_replicate hc]
  rfl

theorem AllDigits.append {cs ds : List Char} (hcs : AllDigits cs) (hds : AllDigits ds) :
    AllDigits (cs ++ ds) := fun c hc => (List.mem_append.mp hc).elim (hcs c) (hds c)

theorem AllDigits.take {cs : List Char} (h : AllDigits cs) (n : Nat) : AllDigits (cs.take n) :=
  fun c hc => h c (List.mem_of_mem_take hc)

theorem AllDigits.drop {cs : List Char} (h : AllDigits cs) (n : Nat) : AllDigits (cs.drop n) :=
  fun c hc => h c (List.mem_of_mem_drop hc)

private theorem mantissa_eq_self {cs : List Char} (h : ∀ c ∈ cs, c ≠ 'e') : mantissa cs = cs :=
  List.takeWhile_eq_self_iff.mpr fun c hc => by simpa using h c hc

private theorem writtenExponent_eq_zero {cs : List Char} (h : ∀ c ∈ cs, c ≠ 'e') :
    writtenExponent cs = 0 := by
  have hdrop : cs.dropWhile (· != 'e') = [] :=
    List.dropWhile_eq_nil_iff.mpr fun c hc => by simpa using h c hc
  rw [writtenExponent, hdrop]

theorem places_point {before after : List Char} (hbefore : AllDigits before) :
    places (before ++ '.' :: after) = after.length := by
  have hdrop : (before ++ '.' :: after).dropWhile (· != '.') = '.' :: after := by
    rw [List.dropWhile_append_of_pos fun c hc => by simpa using hbefore.ne (by decide) c hc]
    rfl
  simp [places, hdrop]

private theorem places_eq_zero {cs : List Char} (h : AllDigits cs) : places cs = 0 := by
  have hdrop : cs.dropWhile (· != '.') = [] :=
    List.dropWhile_eq_nil_iff.mpr fun c hc => by simpa using h.ne (by decide) c hc
  rw [places, hdrop]
  rfl

private theorem readMagnitude_point {before after : List Char} (hbefore : AllDigits before)
    (hafter : AllDigits after) :
    readMagnitude (before ++ '.' :: after) =
      reduceDigits (Nat.ofDigitChars 10 (before ++ after) 0) (-after.length) := by
  have hmark : ∀ c ∈ before ++ '.' :: after, c ≠ 'e' := by
    intro c hc
    rcases List.mem_append.mp hc with hc | hc
    · exact hbefore.ne (by decide) c hc
    · rcases List.mem_cons.mp hc with rfl | hc
      · decide
      · exact hafter.ne (by decide) c hc
  have hdigits : (before ++ '.' :: after).filter (· != '.') = before ++ after := by
    simp [List.filter_append, hbefore.filter, hafter.filter]
  rw [readMagnitude, mantissa_eq_self hmark, writtenExponent_eq_zero hmark, hdigits,
    places_point hbefore]
  simp

theorem toList_exponentText (e : Int) :
    ∃ ds, (exponentText e).toList = 'e' :: (if e < 0 then '-' else '+') :: ds ∧
      AllDigits ds ∧ Nat.ofDigitChars 10 ds 0 = e.natAbs := by
  refine ⟨(if (toString e.natAbs).length < 2 then ['0'] else []) ++ Nat.toDigits 10 e.natAbs,
    ?_, .append ?_ (allDigits_toDigits _), ?_⟩
  · by_cases he : e < 0 <;> by_cases hlength : e.natAbs.repr.length < 2 <;>
      simp [exponentText, he, hlength]
  · split
    · exact allDigits_replicate 1
    · exact fun c hc => absurd hc (by simp)
  · rw [Nat.ofDigitChars_append]
    split <;> simp [Nat.ofDigitChars_cons, Nat.ofDigitChars_ten_toDigits]

private theorem readMagnitude_exponent {cs : List Char} (hcs : ∀ c ∈ cs, c ≠ 'e') (e : Int) :
    readMagnitude (cs ++ (exponentText e).toList) =
      reduceDigits (Nat.ofDigitChars 10 (cs.filter (· != '.')) 0) (e - places cs) := by
  obtain ⟨ds, htext, -, hds⟩ := toList_exponentText e
  have hpos : ∀ c ∈ cs, (c != 'e') = true := fun c hc => by simpa using hcs c hc
  have hmantissa : mantissa (cs ++ (exponentText e).toList) = cs := by
    rw [htext, mantissa, List.takeWhile_append_of_pos hpos]
    simp
  have hexponent : writtenExponent (cs ++ (exponentText e).toList) = e := by
    rw [htext, writtenExponent, List.dropWhile_append_of_pos hpos]
    by_cases he : e < 0
    · rw [if_pos he]
      change -(Nat.ofDigitChars 10 ds 0 : Int) = e
      rw [hds]
      omega
    · rw [if_neg he]
      change (Nat.ofDigitChars 10 ds 0 : Int) = e
      rw [hds]
      omega
  rw [readMagnitude, hmantissa, hexponent]

/-- Digits around a point are read as what they stand for with the exponent that the point asks
for. -/
theorem readMagnitude_positional {ds : List Char} (hds : AllDigits ds) (exponent : Int) :
    readMagnitude (positional ds (ds.length + exponent)) =
      reduceDigits (Nat.ofDigitChars 10 ds 0) exponent := by
  unfold positional
  split
  · -- The point stands before the digits.
    rename_i hpoint
    have hzeros := (allDigits_replicate (-(ds.length + exponent)).toNat).append hds
    have hread := readMagnitude_point (allDigits_replicate 1) hzeros
    have hsplit : List.replicate 1 '0' ++ '.' ::
        (List.replicate (-(ds.length + exponent)).toNat '0' ++ ds) =
        '0' :: '.' :: List.replicate (-(ds.length + exponent)).toNat '0' ++ ds := by simp
    rw [hsplit] at hread
    rw [hread, Nat.ofDigitChars_append, Nat.ofDigitChars_append, Nat.ofDigitChars_replicate_zero,
      Nat.ofDigitChars_replicate_zero, Nat.mul_zero]
    congr 1
    simp only [List.length_append, List.length_replicate]
    omega
  · split
    · -- The point stands behind the digits.
      rename_i hpoint
      have hzeros := hds.append (allDigits_replicate (ds.length + exponent - ds.length).toNat)
      have hread := readMagnitude_point hzeros (allDigits_replicate 1)
      have hsplit : ds ++ List.replicate (ds.length + exponent - ds.length).toNat '0' ++
          '.' :: List.replicate 1 '0' =
          ds ++ List.replicate (ds.length + exponent - ds.length).toNat '0' ++ ['.', '0'] := by
        simp
      rw [hsplit] at hread
      rw [hread, Nat.ofDigitChars_append, Nat.ofDigitChars_append,
        Nat.ofDigitChars_replicate_zero, Nat.ofDigitChars_replicate_zero, Nat.mul_comm,
        Nat.mul_comm _ (Nat.ofDigitChars 10 ds 0), Nat.mul_assoc, ← Nat.pow_add,
        reduceDigits_mul_pow]
      congr 1
      simp only [List.length_replicate]
      push_cast
      omega
    · -- The point stands among the digits.
      rename_i hbefore hafter
      rw [readMagnitude_point (hds.take _) (hds.drop _), List.take_append_drop]
      congr 1
      simp only [List.length_drop]
      omega

/-- Digits with the point after the first of them are read with the exponent that is written. -/
theorem readMagnitude_scientific {ds : List Char} (hds : AllDigits ds) (hne : ds ≠ [])
    (exponent : Int) :
    readMagnitude (scientific ds (ds.length + exponent)) =
      reduceDigits (Nat.ofDigitChars 10 ds 0) exponent := by
  unfold scientific
  cases ds with
  | nil => exact absurd rfl hne
  | cons d rest =>
    cases rest with
    | nil =>
      rw [readMagnitude_exponent (hds.ne (by decide)), hds.filter, places_eq_zero hds]
      congr 1
      simp only [List.length_singleton]
      push_cast
      omega
    | cons c rest =>
      have hfirst : AllDigits [d] := fun x hx => hds x (by simp_all)
      have hrest : AllDigits (c :: rest) := fun x hx => hds x (List.mem_cons_of_mem _ hx)
      have hmark : ∀ x ∈ d :: '.' :: c :: rest, x ≠ 'e' := by
        intro x hx
        rcases List.mem_cons.mp hx with rfl | hx
        · exact hds.ne (by decide) x List.mem_cons_self
        · rcases List.mem_cons.mp hx with rfl | hx
          · decide
          · exact hrest.ne (by decide) x hx
      have hfilter : (d :: '.' :: c :: rest).filter (· != '.') = d :: c :: rest := by
        have := (hfirst.append hrest).filter
        simpa [hrest.filter, List.filter_cons] using this
      have hplaces : places (d :: '.' :: c :: rest) = (c :: rest).length := places_point hfirst
      have hread := readMagnitude_exponent hmark ((d :: c :: rest).length + exponent - 1)
      rw [hfilter, hplaces] at hread
      refine hread.trans ?_
      congr 1
      simp only [List.length_cons]
      push_cast
      omega

theorem readMagnitude_magnitudeText {digits : Nat} {exponent : Int}
    (h : IsReduced digits exponent) :
    readMagnitude (magnitudeText digits exponent) = (digits, exponent) := by
  have hds := allDigits_toDigits digits
  have hvalue : Nat.ofDigitChars 10 (Nat.toDigits 10 digits) 0 = digits :=
    Nat.ofDigitChars_ten_toDigits
  have hne : Nat.toDigits 10 digits ≠ [] := List.length_pos_iff.mp Nat.length_toDigits_pos
  simp only [magnitudeText]
  split
  · rw [readMagnitude_positional hds, hvalue, reduceDigits_of_isReduced h]
  · rw [readMagnitude_scientific hds hne, hvalue, reduceDigits_of_isReduced h]

private theorem magnitudeText_injective {d d' : Nat} {e e' : Int} (h : IsReduced d e)
    (h' : IsReduced d' e') (heq : magnitudeText d e = magnitudeText d' e') : d = d' ∧ e = e' := by
  have hread := readMagnitude_magnitudeText h
  rw [heq, readMagnitude_magnitudeText h'] at hread
  exact ⟨(congrArg Prod.fst hread).symm, (congrArg Prod.snd hread).symm⟩

def isNumberChar (c : Char) : Bool := c.isDigit || c == '.' || c == 'e' || c == '-' || c == '+'

theorem AllDigits.isNumberChar {cs : List Char} (h : AllDigits cs) : cs.all isNumberChar :=
  List.all_eq_true.mpr fun c hc => by simp [Decimal.isNumberChar, h c hc]

private theorem isNumberChar_exponentText (e : Int) : (exponentText e).toList.all isNumberChar := by
  obtain ⟨ds, htext, hds, -⟩ := toList_exponentText e
  have hsign : isNumberChar (if e < 0 then '-' else '+') := by split <;> rfl
  rw [htext, List.all_cons, List.all_cons, hsign, hds.isNumberChar]
  rfl

theorem isNumberChar_magnitudeText (digits : Nat) (exponent : Int) :
    (magnitudeText digits exponent).all isNumberChar := by
  have hds := allDigits_toDigits digits
  have hpoint : isNumberChar '.' := by rfl
  have hzero : isNumberChar '0' := by rfl
  simp only [magnitudeText]
  generalize Nat.toDigits 10 digits = ds at *
  split
  · unfold positional
    split
    · simp [hpoint, hzero, hds.isNumberChar, (allDigits_replicate _).isNumberChar]
    · split
      · simp [hpoint, hzero, hds.isNumberChar, (allDigits_replicate _).isNumberChar]
      · simp [hpoint, (hds.take _).isNumberChar, (hds.drop _).isNumberChar]
  · unfold scientific
    match ds with
    | [] => simp [isNumberChar_exponentText]
    | [d] => simpa [isNumberChar_exponentText] using hds.isNumberChar
    | d :: c :: rest =>
      have hall := hds.isNumberChar
      simp only [List.all_cons, Bool.and_eq_true] at hall
      simp [isNumberChar_exponentText, hpoint, hall.1, hall.2]

theorem magnitudeText_head (digits : Nat) (exponent : Int) :
    ∃ c rest, magnitudeText digits exponent = c :: rest ∧ c.isDigit := by
  have hds := allDigits_toDigits digits
  have hlength : 0 < (Nat.toDigits 10 digits).length := Nat.length_toDigits_pos
  simp only [magnitudeText]
  generalize Nat.toDigits 10 digits = ds at *
  match ds, hlength with
  | d :: rest, _ =>
    have hd := hds d List.mem_cons_self
    split
    · unfold positional
      split
      · exact ⟨'0', _, rfl, rfl⟩
      · split
        · exact ⟨d, _, rfl, hd⟩
        · rename_i hbefore _
          obtain ⟨k, hk⟩ : ∃ k, ((d :: rest).length + exponent).toNat = k + 1 :=
            ⟨((d :: rest).length + exponent).toNat - 1, by omega⟩
          rw [hk]
          exact ⟨d, _, rfl, hd⟩
    · unfold scientific
      match rest with
      | [] => exact ⟨d, _, rfl, hd⟩
      | c :: rest => exact ⟨d, _, rfl, hd⟩

theorem exists_mark_magnitudeText (digits : Nat) (exponent : Int) :
    '.' ∈ magnitudeText digits exponent ∨ 'e' ∈ magnitudeText digits exponent := by
  simp only [magnitudeText]
  split
  · refine .inl ?_
    unfold positional
    split
    · simp
    · split <;> simp
  · obtain ⟨ds, htext, -⟩ := toList_exponentText ((Nat.toDigits 10 digits).length + exponent - 1)
    refine .inr ?_
    unfold scientific
    rw [htext]
    simp

theorem toList_documentText (negative : Bool) (digits : Nat) (exponent : Int)
    (h : IsReduced digits exponent) :
    (finite negative digits exponent h).documentText.toList =
      (if negative then ['-'] else []) ++ magnitudeText digits exponent := by
  cases negative <;> simp [documentText, textWith]

/-- A finite number has none of the words of the numbers that are not finite. -/
theorem not_mem_documentText_finite (negative : Bool) {digits : Nat} {exponent : Int}
    (h : IsReduced digits exponent) :
    'n' ∉ (finite negative digits exponent h).documentText.toList ∧
      'N' ∉ (finite negative digits exponent h).documentText.toList := by
  have hall := List.all_eq_true.mp (isNumberChar_magnitudeText digits exponent)
  rw [toList_documentText]
  constructor <;>
  · intro hmem
    rcases List.mem_append.mp hmem with hmem | hmem
    · cases negative <;> simp at hmem
    · exact absurd (hall _ hmem) (by decide)

/-- A sign is no digit, so it is told from the digits behind it. -/
theorem documentText_finite_injective {negative negative' : Bool} {digits digits' : Nat}
    {exponent exponent' : Int} {h : IsReduced digits exponent} {h' : IsReduced digits' exponent'}
    (heq : (finite negative digits exponent h).documentText =
      (finite negative' digits' exponent' h').documentText) :
    finite negative digits exponent h = finite negative' digits' exponent' h' := by
  have hlist := congrArg String.toList heq
  rw [toList_documentText, toList_documentText] at hlist
  obtain ⟨c, rest, hhead, hc⟩ := magnitudeText_head digits exponent
  obtain ⟨c', rest', hhead', hc'⟩ := magnitudeText_head digits' exponent'
  have hsame : negative = negative' ∧
      magnitudeText digits exponent = magnitudeText digits' exponent' := by
    cases negative <;> cases negative'
    · exact ⟨rfl, hlist⟩
    · rw [hhead] at hlist
      have hsign : c = '-' := (List.cons.inj hlist).1
      simp [hsign] at hc
    · rw [hhead'] at hlist
      have hsign : '-' = c' := (List.cons.inj hlist).1
      simp [← hsign] at hc'
    · exact ⟨rfl, (List.cons.inj hlist).2⟩
  obtain ⟨rfl, htext⟩ := hsame
  obtain ⟨rfl, rfl⟩ := magnitudeText_injective h h' htext
  rfl

/-- Numbers in a document are told apart by their texts. -/
theorem documentText_injective {a b : Decimal} (h : a.documentText = b.documentText) : a = b := by
  have hinfinite : ∀ negative, 'n' ∈ (infinite negative).documentText.toList := by
    intro negative
    cases negative <;> decide
  have hnan : 'N' ∈ nan.documentText.toList := by decide
  cases a with
  | finite negative digits exponent hr =>
    have hword := not_mem_documentText_finite negative hr
    cases b with
    | finite negative' digits' exponent' hr' => exact documentText_finite_injective h
    | infinite negative' => exact absurd (h ▸ hinfinite negative') hword.1
    | nan => exact absurd (h ▸ hnan) hword.2
  | infinite negative =>
    cases b with
    | finite negative' digits' exponent' hr' =>
      exact absurd (h ▸ hinfinite negative) (not_mem_documentText_finite negative' hr').1
    | infinite negative' => cases negative <;> cases negative' <;> simp_all [documentText, textWith]
    | nan => cases negative <;> simp [documentText, textWith] at h
  | nan =>
    cases b with
    | finite negative' digits' exponent' hr' =>
      exact absurd (h ▸ hnan) (not_mem_documentText_finite negative' hr').2
    | infinite negative' => cases negative' <;> simp [documentText, textWith] at h
    | nan => rfl

end Decimal

end OpenApiClient

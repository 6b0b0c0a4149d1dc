import OpenApiClient.Document.Value
import OpenApiClient.Proofs.CanonicalText
import OpenApiClient.Proofs.ValueNodes
import OpenApiClient.Text.Lines
import Mathlib.Algebra.BigOperators.Group.List.Basic

/-! # Texts without line breaks

Lines that are joined by line feeds are more lines than were joined exactly where one of them holds a
line break, as long as none of them ends with one. Quoted texts hold no line break, and neither do the
literals of values. -/
namespace OpenApiClient

namespace Text

/-- Whether a text holds no character that ends lines. -/
def Unbroken (s : String) : Prop := ∀ c ∈ s.toList, isLineBreak c = false

instance (s : String) : Decidable (Unbroken s) := List.decidableBAll _ _

section Unbroken
variable {s t : String}

@[simp] theorem unbroken_append : Unbroken (s ++ t) ↔ Unbroken s ∧ Unbroken t := by
  simp only [Unbroken, String.toList_append, List.mem_append, or_imp, forall_and]

@[simp] theorem unbroken_ofList {cs : List Char} :
    Unbroken (String.ofList cs) ↔ ∀ c ∈ cs, isLineBreak c = false := by
  rw [Unbroken, String.toList_ofList]

theorem forall_mem_intercalate {P : Char → Prop} {separator : String} {parts : List String}
    (hseparator : ∀ c ∈ separator.toList, P c) (h : ∀ part ∈ parts, ∀ c ∈ part.toList, P c) :
    ∀ c ∈ (separator.intercalate parts).toList, P c := by
  induction parts with
  | nil => simp
  | cons part parts ih =>
    obtain ⟨hpart, hparts⟩ := List.forall_mem_cons.mp h
    cases parts with
    | nil => simpa using hpart
    | cons next parts =>
      rw [String.intercalate_cons_cons]
      simp only [String.toList_append, List.forall_mem_append]
      exact ⟨⟨hpart, hseparator⟩, ih hparts⟩

private theorem unbroken_intercalate {separator : String} {parts : List String}
    (hseparator : Unbroken separator) (h : ∀ part ∈ parts, Unbroken part) :
    Unbroken (separator.intercalate parts) :=
  forall_mem_intercalate hseparator h

end Unbroken

/-! ## Lines -/

section Lines
variable {cs rest : List Char} {ls : List String}

def EndsPlain (cs : List Char) : Prop := ∃ c, cs.getLast? = some c ∧ isLineBreak c = false

theorem EndsPlain.ne_nil (h : EndsPlain cs) : cs ≠ [] := by
  rintro rfl
  simp [EndsPlain] at h

theorem EndsPlain.of_cons {c : Char} (h : EndsPlain (c :: cs)) (hne : cs ≠ []) : EndsPlain cs := by
  obtain ⟨last, hlast, hplain⟩ := h
  rw [List.getLast?_cons_of_ne_nil hne] at hlast
  exact ⟨last, hlast, hplain⟩

theorem EndsPlain.ne_nil_of_cons {c : Char} (h : EndsPlain (c :: cs)) (hc : isLineBreak c = true) :
    cs ≠ [] := by
  rintro rfl
  obtain ⟨last, hlast, hplain⟩ := h
  obtain rfl : c = last := by simpa using hlast
  rw [hc] at hplain
  cases hplain

theorem endsPlain_append (s : String) {t : String} (h : EndsPlain t.toList) :
    EndsPlain (s ++ t).toList := by
  obtain ⟨last, hlast, hplain⟩ := h
  refine ⟨last, ?_, hplain⟩
  rw [String.toList_append, List.getLast?_append, hlast, Option.some_or]

theorem endsPlain_intercalate {separator : String} (hne : ls ≠ [])
    (h : ∀ l ∈ ls, EndsPlain l.toList) : EndsPlain (separator.intercalate ls).toList := by
  induction ls with
  | nil => exact absurd rfl hne
  | cons l ls ih =>
    obtain ⟨hl, hls⟩ := List.forall_mem_cons.mp h
    cases ls with
    | nil => simpa using hl
    | cons next ls =>
      rw [String.intercalate_cons_cons]
      exact endsPlain_append _ (ih (by simp) hls)

theorem ne_empty_of_endsPlain {s : String} (h : EndsPlain s.toList) : s ≠ "" := by
  rintro rfl
  exact h.ne_nil rfl

private theorem lineChars_cons {c : Char} (hc : isLineBreak c = false) :
    lineChars (c :: cs) =
      match lineChars cs with
      | [] => [[c]]
      | first :: others => (c :: first) :: others := by
  have hreturn : ∀ more, c = '\r' → cs = '\n' :: more → False := by
    rintro _ rfl
    cases hc
  rw [lineChars.eq_3 c cs hreturn, hc]
  rfl

theorem lineChars_eq_nil_iff : lineChars cs = [] ↔ cs = [] := by
  fun_cases lineChars cs <;> simp_all

theorem one_le_length_lineChars (hne : cs ≠ []) : 1 ≤ (lineChars cs).length :=
  List.length_pos_iff.mpr (lineChars_eq_nil_iff.not.mpr hne)

theorem lineChars_append (h : EndsPlain cs) (rest : List Char) :
    lineChars (cs ++ '\n' :: rest) = lineChars cs ++ lineChars rest := by
  fun_induction lineChars cs with
  | case1 => exact absurd rfl h.ne_nil
  | case2 cs ih =>
    have hcs : EndsPlain ('\n' :: cs) := h.of_cons (by simp)
    have hne : cs ≠ [] := hcs.ne_nil_of_cons rfl
    simp only [List.cons_append, lineChars, ih (hcs.of_cons hne)]
  | case3 c cs hpair hc ih =>
    have hne : cs ≠ [] := h.ne_nil_of_cons hc
    rw [List.cons_append, lineChars.eq_3 _ _ ?_, if_pos hc, ih (h.of_cons hne), List.cons_append]
    intro more hreturn heq
    obtain ⟨d, cs, rfl⟩ := List.exists_cons_of_ne_nil hne
    exact hpair cs hreturn (by simpa using (List.cons.inj heq).1)
  | case4 c cs hpair hc hnil ih =>
    have hcs := lineChars_eq_nil_iff.mp hnil
    have hfeed : lineChars ('\n' :: rest) = [] :: lineChars rest := by simp [lineChars, isLineBreak]
    rw [hcs, List.cons_append, lineChars_cons (by simpa using hc), List.nil_append, hfeed]
    rfl
  | case5 c cs hpair hc first others hsome ih =>
    have hne : cs ≠ [] := lineChars_eq_nil_iff.not.mp (by simp [hsome])
    rw [List.cons_append, lineChars_cons (by simpa using hc), ih (h.of_cons hne), hsome]
    rfl

theorem two_le_length_lineChars (h : EndsPlain cs) {c : Char} (hmem : c ∈ cs)
    (hc : isLineBreak c = true) : 2 ≤ (lineChars cs).length := by
  fun_induction lineChars cs with
  | case1 => cases hmem
  | case2 cs ih =>
    have hcs : EndsPlain ('\n' :: cs) := h.of_cons (by simp)
    have hne : cs ≠ [] := hcs.ne_nil_of_cons rfl
    simpa using one_le_length_lineChars hne
  | case3 d cs hpair hd ih =>
    have hne : cs ≠ [] := h.ne_nil_of_cons hd
    simpa using one_le_length_lineChars hne
  | case4 d cs hpair hd hnil ih =>
    rw [lineChars_eq_nil_iff.mp hnil, List.mem_singleton] at hmem
    exact absurd (hmem ▸ hc) hd
  | case5 d cs hpair hd first others hsome ih =>
    have hne : cs ≠ [] := lineChars_eq_nil_iff.not.mp (by simp [hsome])
    rcases List.mem_cons.mp hmem with rfl | hmem
    · exact absurd hc hd
    · have htwo := ih (h.of_cons hne) hmem
      rw [hsome] at htwo
      simpa using htwo

theorem lines_eq_singleton {s : String} (h : Unbroken s) (hends : EndsPlain s.toList) :
    lines s = [s] := by
  rw [lines, lineChars_eq_singleton h hends.ne_nil, List.map_singleton, String.ofList_toList]

theorem length_lines_eq_one_iff {s : String} (h : EndsPlain s.toList) :
    (lines s).length = 1 ↔ Unbroken s := by
  constructor
  · intro hone c hmem
    by_contra hc
    have htwo := two_le_length_lineChars h hmem (by simpa using hc)
    rw [lines, List.length_map] at hone
    omega
  · intro hunbroken
    rw [lines_eq_singleton hunbroken h, List.length_singleton]

theorem one_le_length_lines {s : String} (h : EndsPlain s.toList) : 1 ≤ (lines s).length := by
  rw [lines, List.length_map]
  exact one_le_length_lineChars h.ne_nil

theorem lines_append_feed {s : String} (h : EndsPlain s.toList) (t : String) :
    lines (s ++ "\n" ++ t) = lines s ++ lines t := by
  have hchars : (s ++ "\n" ++ t).toList = s.toList ++ '\n' :: t.toList := by simp
  rw [lines, hchars, lineChars_append h, List.map_append, lines, lines]

/-- A text is the first line where it stands before a line feed exactly if it holds no line break. -/
theorem head?_lines_iff {s : String} (h : EndsPlain s.toList) (rest : String) :
    (lines (s ++ "\n" ++ rest)).head? = some s ↔ Unbroken s := by
  rw [lines_append_feed h]
  constructor
  · intro hhead c hc
    have hmem : s ∈ lines s := by
      cases hlines : lines s with
      | nil =>
        have hone := one_le_length_lines h
        simp [hlines] at hone
      | cons first others =>
        rw [hlines, List.cons_append, List.head?_cons, Option.some_inj] at hhead
        exact hhead ▸ List.mem_cons_self
    obtain ⟨l, hl, heq⟩ := List.mem_map.mp hmem
    rw [← heq, String.toList_ofList] at hc
    exact not_isLineBreak_of_mem_lineChars hl hc
  · intro hunbroken
    rw [lines_eq_singleton hunbroken h]
    rfl

/-- The lines of joined lines are the lines of each of them. -/
theorem lines_intercalate (h : ∀ l ∈ ls, EndsPlain l.toList) :
    lines ("\n".intercalate ls) = ls.flatMap lines := by
  induction ls with
  | nil => rfl
  | cons l ls ih =>
    obtain ⟨hl, hls⟩ := List.forall_mem_cons.mp h
    cases ls with
    | nil => simp
    | cons next ls =>
      rw [String.intercalate_cons_cons, lines_append_feed hl, ih hls,
        List.flatMap_cons (x := l)]

theorem lines_intercalate_eq (h : ∀ l ∈ ls, EndsPlain l.toList) (hunbroken : ∀ l ∈ ls, Unbroken l) :
    lines ("\n".intercalate ls) = ls := by
  rw [lines_intercalate h, List.flatMap_def,
    List.map_congr_left fun l hl => lines_eq_singleton (hunbroken l hl) (h l hl)]
  exact List.flatMap_singleton' ls

/-- Joined lines are as many as before exactly where none of them holds a line break. -/
theorem length_lines_intercalate_iff (h : ∀ l ∈ ls, EndsPlain l.toList) :
    (lines ("\n".intercalate ls)).length = ls.length ↔ ∀ l ∈ ls, Unbroken l := by
  constructor
  · intro hlength
    rw [lines_intercalate h, List.length_flatMap] at hlength
    induction ls with
    | nil => simp
    | cons l ls ih =>
      obtain ⟨hl, hls⟩ := List.forall_mem_cons.mp h
      have hone := one_le_length_lines hl
      have hmany : (ls.map fun l => (lines l).length).length ≤
          (ls.map fun l => (lines l).length).sum := by
        apply List.length_le_sum_of_one_le
        intro n hn
        obtain ⟨other, hother, rfl⟩ := List.mem_map.mp hn
        exact one_le_length_lines (hls other hother)
      rw [List.length_map] at hmany
      rw [List.map_cons, List.sum_cons, List.length_cons] at hlength
      refine List.forall_mem_cons.mpr ⟨(length_lines_eq_one_iff hl).mp ?_, ih hls ?_⟩ <;> omega
  · intro hunbroken
    rw [lines_intercalate_eq h hunbroken]

private theorem intercalate_lineChars (h : EndsPlain cs)
    (hfeeds : ∀ c ∈ cs, isLineBreak c = true → c = '\n') :
    ['\n'].intercalate (lineChars cs) = cs := by
  fun_induction lineChars cs with
  | case1 => rfl
  | case2 cs ih => simpa using hfeeds '\r' List.mem_cons_self rfl
  | case3 c cs hpair hc ih =>
    obtain ⟨hfeed, hfeeds⟩ := List.forall_mem_cons.mp hfeeds
    have hne : cs ≠ [] := h.ne_nil_of_cons hc
    rw [hfeed hc, List.intercalate_cons_of_ne_nil (lineChars_eq_nil_iff.not.mpr hne),
      ih (h.of_cons hne) hfeeds]
    rfl
  | case4 c cs hpair hc hnil ih =>
    rw [lineChars_eq_nil_iff.mp hnil, List.intercalate_singleton]
  | case5 c cs hpair hc first others hsome ih =>
    have hne : cs ≠ [] := lineChars_eq_nil_iff.not.mp (by simp [hsome])
    have ih := ih (h.of_cons hne) (List.forall_mem_cons.mp hfeeds).2
    rw [hsome] at ih
    rw [← ih]
    cases others <;> rfl

/-- The joined lines of a text are the text exactly where only line feeds end them. -/
theorem intercalate_lines_iff {s : String} (h : EndsPlain s.toList) :
    "\n".intercalate (lines s) = s ↔ ∀ c ∈ s.toList, isLineBreak c = true → c = '\n' := by
  constructor
  · intro heq
    rw [← heq]
    apply forall_mem_intercalate
    · simp
    · intro l hl c hc hbreak
      obtain ⟨l, hmem, rfl⟩ := List.mem_map.mp hl
      rw [String.toList_ofList] at hc
      rw [not_isLineBreak_of_mem_lineChars hmem hc] at hbreak
      cases hbreak
  · intro hfeeds
    apply String.toList_injective
    rw [String.toList_intercalate, lines, List.map_map]
    simpa [Function.comp_def] using intercalate_lineChars h hfeeds

/-- Lines behind the first one, which is where it belongs already. -/
def moved (width : Nat) : List String → List String
  | [] => []
  | first :: others => first :: others.map (spaces width ++ ·)

theorem indentRest_append {s : String} (h : EndsPlain s.toList) (hlines : ∀ l ∈ lines s, l ≠ "")
    (width : Nat) (more : String) :
    ∃ after, indentRest width (s ++ "\n" ++ more) =
      "\n".intercalate (moved width (lines s) ++ after) := by
  obtain ⟨first, others, hs⟩ : ∃ first others, lines s = first :: others := by
    have hone := one_le_length_lines h
    apply List.exists_cons_of_ne_nil
    intro hnil
    simp [hnil] at hone
  have hall : lines (s ++ "\n" ++ more ++ "\n") = first :: (others ++ lines (more ++ "\n")) := by
    have hfeed := lines_append_feed h (more ++ "\n")
    rw [← String.append_assoc] at hfeed
    rw [hfeed, hs, List.cons_append]
  rw [hs] at hlines ⊢
  have hothers : ∀ l ∈ others, (if l.isEmpty then l else spaces width ++ l) = spaces width ++ l := by
    intro l hl
    rw [if_neg]
    simpa using hlines l (List.mem_cons_of_mem _ hl)
  refine ⟨(lines (more ++ "\n")).map fun l => if l.isEmpty then l else spaces width ++ l, ?_⟩
  simp only [indentRest, hall, moved, List.map_append, List.cons_append,
    List.map_congr_left hothers]

end Lines

/-! ## Quoted texts -/

private theorem isLineBreak_hexDigits (width n : Nat) :
    ∀ c ∈ hexDigits width n, isLineBreak c = false := by
  have hdigit : ∀ d < 16, isLineBreak (hexDigit d) = false := by decide
  induction width generalizing n with
  | zero => simp [hexDigits]
  | succ width ih =>
    intro c hc
    rcases List.mem_append.mp hc with hc | hc
    · exact ih _ c hc
    · rw [List.mem_singleton.mp hc]
      exact hdigit _ (Nat.mod_lt _ (by decide))

def breakCodes : List Nat := [10, 11, 12, 13, 28, 29, 30, 0x85, 0x2028, 0x2029]

theorem isLineBreak_eq_false_of {p : Char → Bool} (hall : ∀ n ∈ breakCodes, p (Char.ofNat n) = false)
    {c : Char} (h : p c = true) : isLineBreak c = false := by
  by_contra hbreak
  have hmem : c.toNat ∈ breakCodes := by
    simp only [isLineBreak, Bool.not_eq_false, Bool.or_eq_true, Bool.and_eq_true, decide_eq_true_eq,
      beq_iff_eq] at hbreak
    simp only [breakCodes, List.mem_cons, List.not_mem_nil, or_false]
    omega
  have hfalse := hall _ hmem
  rw [Char.ofNat_toNat, h] at hfalse
  cases hfalse

private theorem isLineBreak_of_isPrintable {c : Char} (h : isPrintable c = true) :
    isLineBreak c = false :=
  isLineBreak_eq_false_of (by decide +kernel) h

private theorem isLineBreak_escapeIn {quote : Char} (hquote : quote = '"' ∨ quote = '\'') (c : Char) :
    ∀ d ∈ escapeIn quote c, isLineBreak d = false := by
  have hescape : ∀ sign, isLineBreak sign = false → ∀ {ds : List Char},
      (∀ d ∈ ds, isLineBreak d = false) → ∀ d ∈ '\\' :: sign :: ds, isLineBreak d = false := by
    intro sign hsign ds hds
    exact List.forall_mem_cons.mpr ⟨rfl, List.forall_mem_cons.mpr ⟨hsign, hds⟩⟩
  unfold escapeIn
  split
  · rename_i hc
    have hsign : isLineBreak c = false := by
      rcases (by simpa using hc : c = quote ∨ c = '\\') with rfl | rfl
      · rcases hquote with rfl | rfl <;> rfl
      · rfl
    exact hescape c hsign (by simp)
  split
  · exact hescape 't' rfl (by simp)
  split
  · exact hescape 'n' rfl (by simp)
  split
  · exact hescape 'r' rfl (by simp)
  split
  · rename_i hprintable
    simpa using isLineBreak_of_isPrintable hprintable
  split
  · exact hescape 'x' rfl (isLineBreak_hexDigits _ _)
  split
  · exact hescape 'u' rfl (isLineBreak_hexDigits _ _)
  · exact hescape 'U' rfl (isLineBreak_hexDigits _ _)

/-- A quoted text is in one line, whatever stands in it. -/
theorem unbroken_quoted (s : String) : Unbroken (quoted s) := by
  have hquote : quoteFor s.toList = '"' ∨ quoteFor s.toList = '\'' := by
    unfold quoteFor
    split <;> simp
  have hend : isLineBreak (quoteFor s.toList) = false := by rcases hquote with h | h <;> rw [h] <;> rfl
  rw [quoted, unbroken_ofList, quotedChars]
  intro c hc
  rcases List.mem_append.mp hc with hc | hc
  · rcases List.mem_cons.mp hc with rfl | hc
    · exact hend
    · obtain ⟨d, -, hc⟩ := List.mem_flatMap.mp hc
      exact isLineBreak_escapeIn hquote d c hc
  · rwa [List.mem_singleton.mp hc]

end Text

/-! ## Values -/

open Text

private theorem Decimal.unbroken_text (d : Decimal) : Unbroken d.text := by
  have hsign : ∀ negative : Bool, Unbroken (if negative then "-" else "") := by decide
  cases d with
  | finite negative digits exponent hr =>
    have hall := List.all_eq_true.mp (isNumberChar_magnitudeText digits exponent)
    refine unbroken_append.mpr ⟨hsign negative, unbroken_ofList.mpr fun c hc => ?_⟩
    exact isLineBreak_eq_false_of (by decide) (hall c hc)
  | infinite negative => exact unbroken_append.mpr ⟨hsign negative, by decide⟩
  | nan => decide

theorem Scalar.unbroken_display {s : Scalar} (h : ∀ t, s ≠ .text t) : Unbroken s.display := by
  cases s with
  | null => decide
  | bool b => cases b <;> decide
  | int n =>
    intro c hc
    apply isLineBreak_eq_false_of (p := fun c => c.isDigit || c == '-') (by decide)
    simpa using mem_toString_int hc
  | decimal d => exact d.unbroken_text
  | text t => exact absurd rfl (h t)

theorem Scalar.unbroken_literal (s : Scalar) : Unbroken s.literal := by
  cases s with
  | text t => exact unbroken_quoted t
  | _ => exact Scalar.unbroken_display (by simp)

private theorem Value.unbroken_itemLiterals {items : List Value} (h : ∀ v ∈ items, Unbroken v.literal) :
    ∀ part ∈ itemLiterals items, Unbroken part := by
  induction items with
  | nil => simp [itemLiterals]
  | cons v items ih =>
    obtain ⟨hv, hitems⟩ := List.forall_mem_cons.mp h
    exact List.forall_mem_cons.mpr ⟨hv, ih hitems⟩

private theorem Value.unbroken_memberLiterals {members : List (Scalar × Value)}
    (h : ∀ m ∈ members, Unbroken m.2.literal) : ∀ part ∈ memberLiterals members, Unbroken part := by
  induction members with
  | nil => simp [memberLiterals]
  | cons m members ih =>
    obtain ⟨hm, hmembers⟩ := List.forall_mem_cons.mp h
    refine List.forall_mem_cons.mpr ⟨?_, ih hmembers⟩
    simp [m.1.unbroken_literal, hm, show Unbroken ": " by decide]

theorem Value.unbroken_literal (v : Value) : Unbroken v.literal := by
  have hcomma : Unbroken ", " := by decide
  induction v with
  | scalar s => exact s.unbroken_literal
  | sequence items ih =>
    have hparts := unbroken_intercalate hcomma (unbroken_itemLiterals ih)
    simp [literal, hparts, show Unbroken "[" ∧ Unbroken "]" by decide]
  | mapping members ih =>
    have hparts := unbroken_intercalate hcomma (unbroken_memberLiterals ih)
    simp [literal, hparts, show Unbroken "\x7b" ∧ Unbroken "\x7d" by decide]

theorem Value.unbroken_display {v : Value} (h : ∀ t, v ≠ .text t) : Unbroken v.display := by
  cases v with
  | scalar s => exact s.unbroken_display fun t hs => h t (congrArg Value.scalar hs)
  | sequence items => exact unbroken_literal _
  | mapping members => exact unbroken_literal _

end OpenApiClient

import OpenApiClient.Proofs.ClassNames
import OpenApiClient.Proofs.PlainNames
import OpenApiClient.Proofs.TextParts

/-! # Normal forms of names

A snake case is in normal form: it is empty, or made of words with one underscore between each two.
What a name has of small letters and digits in its lower case stays, in its order, since a hump only
adds an underscore and the form of a sigma is the only thing that the lower case takes from a
neighbour. A text in normal form has no humps and is its own lower case, so its snake case is the text
itself. -/
namespace OpenApiClient

namespace Text

private theorem flatten_fields (p : Char → Bool) (cs : List Char) :
    (fields p cs).flatten = cs.filter (!p ·) := by
  induction cs with
  | nil => rfl
  | cons c rest ih =>
    cases hfields : fields p rest with
    | nil => exact absurd hfields (fields_ne_nil _ _)
    | cons first others =>
      rw [hfields] at ih
      by_cases hc : p c
      · simp [fields, hfields, hc, ← ih]
      · simp [fields, hfields, hc, ← ih]

/-- Only the characters between the runs get lost. -/
theorem flatten_runs (p : Char → Bool) (cs : List Char) :
    (runs p cs).flatten = cs.filter (!p ·) := by
  rw [runs, List.flatten_filter_not_isEmpty, flatten_fields]

end Text

namespace Naming

/-! ## Texts in normal form -/

/-- The texts of words of small Latin letters and digits with one underscore between each two. -/
inductive SnakeForm : List Char → Prop
  | word {w : List Char} (h : IsWord w) : SnakeForm w
  | join {w rest : List Char} (h : IsWord w) (hrest : SnakeForm rest) : SnakeForm (w ++ '_' :: rest)

variable {cs : List Char} {words : List (List Char)}

theorem SnakeForm.ne_nil (h : SnakeForm cs) : cs ≠ [] := by
  cases h with
  | word h => exact h.ne_nil
  | join h hrest => simp

private theorem SnakeForm.letters (h : SnakeForm cs) : ∀ c ∈ cs, isNameLetter c := by
  induction h with
  | word h => exact fun c hc => isNameLetter_of_isWordChar (h.chars c hc)
  | join h hrest ih =>
    intro c hc
    rcases List.mem_append.mp hc with hc | hc
    · exact isNameLetter_of_isWordChar (h.chars c hc)
    · rcases List.mem_cons.mp hc with rfl | hc
      · rfl
      · exact ih c hc

private theorem snakeForm_intercalate (hne : words ≠ []) (h : ∀ w ∈ words, IsWord w) :
    SnakeForm (List.intercalate ['_'] words) := by
  induction words with
  | nil => exact absurd rfl hne
  | cons w words ih =>
    obtain ⟨hw, hwords⟩ := List.forall_mem_cons.mp h
    cases words with
    | nil =>
      rw [List.intercalate_singleton]
      exact .word hw
    | cons v words =>
      rw [List.intercalate_cons_cons, List.append_assoc, List.singleton_append]
      exact .join hw (ih (by simp) hwords)

theorem SnakeForm.intercalate_runs (h : SnakeForm cs) :
    List.intercalate ['_'] (Text.runs (!isWordChar ·) cs) = cs := by
  have hinside : ∀ {w : List Char}, IsWord w → ∀ c ∈ w, (!isWordChar c) = false :=
    fun hw c hc => by simp [hw.chars c hc]
  induction h with
  | word hw => simp [Text.runs, Text.fields_eq_singleton (hinside hw), hw.ne_nil]
  | @join w rest hw hrest ih =>
    have hruns : Text.runs (!isWordChar ·) (w ++ '_' :: rest) =
        w :: Text.runs (!isWordChar ·) rest := by
      have hcut : (!isWordChar '_') = true := by decide
      simp [Text.runs, Text.fields_append w rest (hinside hw) hcut, hw.ne_nil]
    rw [hruns]
    cases hlater : Text.runs (!isWordChar ·) rest with
    | nil =>
      rw [hlater] at ih
      exact absurd ih.symm hrest.ne_nil
    | cons v words =>
      rw [List.intercalate_cons_cons, ← hlater, ih, List.append_assoc, List.singleton_append]

/-! ## Humps and lower case -/

private theorem splitHumps_eq_self (h : ∀ c ∈ cs, isCapital c = false) : splitHumps cs = cs := by
  induction cs using splitHumps.induct with
  | case1 => rfl
  | case2 c => rfl
  | case3 b c rest hhump ih =>
    have hc : isCapital c = false := h c (by simp)
    simp [startsHump, hc] at hhump
  | case4 b c rest hhump ih =>
    rw [splitHumps, if_neg hhump, ih fun d hd => h d (List.mem_cons_of_mem _ hd)]

theorem flatMap_splitHumps {f : Char → List Char} (h : f '_' = []) (cs : List Char) :
    (splitHumps cs).flatMap f = cs.flatMap f := by
  induction cs using splitHumps.induct with
  | case1 => rfl
  | case2 c => rfl
  | case3 b c rest hhump ih =>
    simp only [splitHumps, if_pos hhump, List.flatMap_cons, h, ih, List.nil_append]
  | case4 b c rest hhump ih => simp only [splitHumps, if_neg hhump, List.flatMap_cons, ih]

def lowerWord (c : Char) : List Char := (Text.lowerAfter [] [c]).filter isWordChar

private theorem filter_lowerAfter (before cs : List Char) :
    (Text.lowerAfter before cs).filter isWordChar = cs.flatMap lowerWord := by
  induction cs generalizing before with
  | nil => rfl
  | cons c rest ih =>
    rw [Text.lowerAfter, List.filter_append, ih, List.flatMap_cons]
    congr 1
    by_cases hsigma : c = 'Σ'
    · -- neither form of the sigma may stand in a word
      subst hsigma
      rw [if_pos rfl]
      split <;> decide
    · simp [lowerWord, Text.lowerAfter, hsigma]

private theorem lowerAfter_eq_self (h : ∀ c ∈ cs, isNameLetter c) (before : List Char) :
    Text.lowerAfter before cs = cs := by
  have hsmall : ∀ n < 128, isNameLetter (Char.ofNat n) →
      Text.lowerChar (Char.ofNat n) = Char.ofNat n := by decide
  induction cs generalizing before with
  | nil => rfl
  | cons c rest ih =>
    obtain ⟨hc, hrest⟩ := List.forall_mem_cons.mp h
    have hsigma : c ≠ 'Σ' := fun heq => absurd (heq ▸ hc) (by decide)
    have hdotted : c ≠ 'İ' := fun heq => absurd (heq ▸ hc) (by decide)
    have hlower : Text.lowerChar c = c :=
      of_isNameLetter (P := fun c => isNameLetter c → Text.lowerChar c = c) hsmall hc hc
    rw [Text.lowerAfter, if_neg hsigma, if_neg hdotted, hlower, ih hrest, List.singleton_append]

/-! ## The snake case -/

theorem isWord_wordChars (name : List Char) : ∀ w ∈ wordChars name, IsWord w :=
  fun _ => isWord_of_mem_wordChars

theorem snakeChars_eq_nil_or_form (name : List Char) :
    snakeChars name = [] ∨ SnakeForm (snakeChars name) := by
  by_cases h : wordChars name = []
  · left
    rw [snakeChars, h]
    rfl
  · exact .inr (snakeForm_intercalate h (isWord_wordChars name))

theorem filter_underscore_intercalate (h : ∀ w ∈ words, IsWord w) :
    (List.intercalate ['_'] words).filter (· != '_') = words.flatten := by
  have hinside : ∀ w ∈ words, w.filter (· != '_') = w := by
    intro w hw
    refine List.filter_eq_self.mpr fun c hc => ?_
    have hword := (h w hw).chars c hc
    simpa using fun heq : c = '_' => absurd (heq ▸ hword) (by decide)
  induction words with
  | nil => rfl
  | cons w words ih =>
    obtain ⟨hw, hwords⟩ := List.forall_mem_cons.mp hinside
    have hlater := ih (fun v hv => h v (List.mem_cons_of_mem _ hv)) hwords
    cases words with
    | nil => simp [hw]
    | cons v words =>
      rw [List.intercalate_cons_cons, List.filter_append, List.filter_append, hw, hlater]
      simp

/-- The words of a name are all that its lower case has of letters and digits, in their order. -/
theorem flatten_wordChars (name : List Char) :
    (wordChars name).flatten = (Text.lowerChars name).filter isWordChar := by
  calc (wordChars name).flatten
      = (Text.lowerChars (splitHumps name)).filter isWordChar := by
        simp [wordChars, Text.flatten_runs]
    _ = (splitHumps name).flatMap lowerWord := filter_lowerAfter [] _
    _ = name.flatMap lowerWord := flatMap_splitHumps (by decide) _
    _ = (Text.lowerChars name).filter isWordChar := (filter_lowerAfter [] _).symm

/-- A text in normal form is its own snake case. -/
theorem SnakeForm.snakeChars_eq (h : SnakeForm cs) : snakeChars cs = cs := by
  have hcapital : ∀ c ∈ cs, isCapital c = false := by
    intro c hc
    have hletter := h.letters c hc
    rw [isNameLetter, Bool.or_eq_true] at hletter
    rcases hletter with hword | hunderscore
    · exact isCapital_of_isWordChar hword
    · rw [eq_of_beq hunderscore]
      decide
  rw [snakeChars, wordChars, splitHumps_eq_self hcapital, Text.lowerChars,
    lowerAfter_eq_self h.letters, h.intercalate_runs]

/-- The snake case takes every name to a normal form: it is empty or words with one underscore between
each two, has without its underscores the letters and digits of the name in lower case, and is its own
snake case. -/
theorem snakeCase_projects (name : String) :
    (snakeCase name = "" ∨ SnakeForm (snakeCase name).toList) ∧
      (snakeCase name).toList.filter (· != '_') = (Text.lower name).toList.filter isWordChar ∧
      snakeCase (snakeCase name) = snakeCase name := by
  have hchars : (snakeCase name).toList = snakeChars name.toList := String.toList_ofList
  have hform := snakeChars_eq_nil_or_form name.toList
  refine ⟨?_, ?_, ?_⟩
  · rw [hchars]
    exact hform.imp_left fun hnil => by rw [snakeCase, hnil]
  · rw [hchars, snakeChars, filter_underscore_intercalate (isWord_wordChars _), flatten_wordChars,
      Text.lower, String.toList_ofList]
  · rw [snakeCase, hchars]
    rcases hform with hnil | hform
    · rw [snakeCase, hnil]
      rfl
    · rw [hform.snakeChars_eq, snakeCase]

end Naming
end OpenApiClient

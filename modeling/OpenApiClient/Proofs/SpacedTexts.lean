import OpenApiClient.Text.Basic
import Mathlib.Data.List.Chain

/-! # White space of single spaces

The words of a text with single spaces between them are its characters, with a space for the white
space between two others and none at its ends. The texts that this does not change are those in which
all white space is single spaces between other characters, and every text becomes one of them. -/
namespace OpenApiClient.Text

variable {cs rest : List Char} {c d : Char}

/-- Whether all white space in a text is single spaces between other characters: none of it is anything
else, none stands at an end, and no two of it stand side by side. -/
structure SingleSpaced (cs : List Char) : Prop where
  spaces : ∀ c ∈ cs, isBlank c = true → c = ' '
  start : ∀ c ∈ cs.head?, isBlank c = false
  finish : ∀ c ∈ cs.getLast?, isBlank c = false
  single : cs.IsChain fun c d => isBlank c = true → isBlank d = false

namespace SingleSpaced

theorem nil : SingleSpaced [] := ⟨by simp, by simp, by simp, .nil⟩

theorem cons (hc : isBlank c = false) (h : SingleSpaced cs) : SingleSpaced (c :: cs) where
  spaces := List.forall_mem_cons.mpr ⟨fun hblank => by simp [hc] at hblank, h.spaces⟩
  start := by simpa using hc
  finish := by
    cases cs with
    | nil => simpa using hc
    | cons d cs => exact h.finish
  single := List.isChain_cons.mpr ⟨fun _ _ hblank => by simp [hc] at hblank, h.single⟩

private theorem space (hc : isBlank c = false) (h : SingleSpaced cs) (hne : cs ≠ []) :
    SingleSpaced (c :: ' ' :: cs) where
  spaces := by
    refine List.forall_mem_cons.mpr ⟨fun hblank => by simp [hc] at hblank, ?_⟩
    exact List.forall_mem_cons.mpr ⟨fun _ => rfl, h.spaces⟩
  start := by simpa using hc
  finish := by
    obtain ⟨d, cs, rfl⟩ := List.exists_cons_of_ne_nil hne
    exact h.finish
  single := by
    refine List.isChain_cons.mpr ⟨fun _ _ hblank => by simp [hc] at hblank, ?_⟩
    exact List.isChain_cons.mpr ⟨fun d hd _ => h.start d hd, h.single⟩

end SingleSpaced

/-- The characters of a text on one line. White space between two others is a space. -/
def squeezed : List Char → List Char
  | [] => []
  | c :: rest =>
    if isBlank c then squeezed rest
    else if rest.head?.any isBlank && !(squeezed rest).isEmpty then c :: ' ' :: squeezed rest
    else c :: squeezed rest

theorem squeezed_blank (h : isBlank c = true) (rest : List Char) :
    squeezed (c :: rest) = squeezed rest := by
  rw [squeezed, if_pos h]

/-- Behind a character that is not blank comes what follows it, with a space before it where it starts
with white space and something else follows. -/
theorem squeezed_cons_cases (hc : isBlank c = false) (rest : List Char) :
    (∃ d ∈ rest.head?, isBlank d = true) ∧ squeezed rest ≠ [] ∧
        squeezed (c :: rest) = c :: ' ' :: squeezed rest ∨
      squeezed (c :: rest) = c :: squeezed rest := by
  rw [squeezed, if_neg (by simp [hc])]
  split
  · rename_i h
    refine .inl ?_
    simpa [Option.any_eq_true] using h
  · exact .inr rfl

theorem singleSpaced_squeezed (cs : List Char) : SingleSpaced (squeezed cs) := by
  induction cs with
  | nil => exact .nil
  | cons c rest ih =>
    cases hc : isBlank c with
    | true => exact squeezed_blank hc rest ▸ ih
    | false =>
      rcases squeezed_cons_cases hc rest with ⟨-, hne, heq⟩ | heq
      · exact heq ▸ ih.space hc hne
      · exact heq ▸ ih.cons hc

/-- In a text whose white space is single spaces, only a space in front is taken away. What follows a
word starts with a space, so the induction goes without the condition on the start. -/
theorem squeezed_eq_dropWhile (hspaces : ∀ c ∈ cs, isBlank c = true → c = ' ')
    (hfinish : ∀ c ∈ cs.getLast?, isBlank c = false)
    (hsingle : cs.IsChain fun c d => isBlank c = true → isBlank d = false) :
    squeezed cs = cs.dropWhile isBlank := by
  induction cs with
  | nil => rfl
  | cons c rest ih =>
    obtain ⟨hnext, hchain⟩ := List.isChain_cons.mp hsingle
    have hrest : squeezed rest = rest.dropWhile isBlank := by
      refine ih (fun d hd => hspaces d (List.mem_cons_of_mem _ hd)) (fun d hd => hfinish d ?_) hchain
      rwa [List.getLast?_cons_of_ne_nil]
      rintro rfl
      cases hd
    cases hc : isBlank c with
    | true => rw [squeezed_blank hc, hrest, List.dropWhile_cons_of_pos hc]
    | false =>
      rw [List.dropWhile_cons_of_neg (by simp [hc])]
      cases rest with
      | nil => simp [squeezed, hc]
      | cons d more =>
        cases hd : isBlank d with
        | false =>
          rw [List.dropWhile_cons_of_neg (by simp [hd])] at hrest
          rw [squeezed, if_neg (by simp [hc]), if_neg (by simp [hd]), hrest]
        | true =>
          obtain rfl := hspaces d (by simp) hd
          cases more with
          | nil => simpa [hd] using hfinish ' ' rfl
          | cons e more =>
            have he : isBlank e = false := (List.isChain_cons_cons.mp hchain).1 hd
            rw [List.dropWhile_cons_of_pos hd, List.dropWhile_cons_of_neg (by simp [he])] at hrest
            rw [squeezed, if_neg (by simp [hc]), hrest, if_pos (by simp [hd])]

theorem squeezed_eq_self (h : SingleSpaced cs) : squeezed cs = cs := by
  rw [squeezed_eq_dropWhile h.spaces h.finish h.single]
  cases cs with
  | nil => rfl
  | cons c rest => exact List.dropWhile_cons_of_neg (by simp [h.start c rfl])

theorem mem_of_mem_squeezed (hd : isBlank d = false) (h : d ∈ squeezed cs) : d ∈ cs := by
  have hspace : d ≠ ' ' := by
    rintro rfl
    cases hd
  induction cs with
  | nil => exact h
  | cons c rest ih =>
    cases hc : isBlank c with
    | true => exact List.mem_cons_of_mem _ (ih (squeezed_blank hc rest ▸ h))
    | false =>
      rcases squeezed_cons_cases hc rest with ⟨-, -, heq⟩ | heq
      · simp only [heq, List.mem_cons, hspace, false_or] at h
        exact List.mem_cons.mpr (h.imp_right ih)
      · rw [heq, List.mem_cons] at h
        exact List.mem_cons.mpr (h.imp_right ih)

/-! ## Words -/

section Runs
variable {p : Char → Bool}

private theorem runs_separator (hc : p c = true) (rest : List Char) :
    runs p (c :: rest) = runs p rest := by
  simp [runs, fields, hc]

theorem runs_alone (hc : p c = false) (hrest : ∀ d ∈ rest.head?, p d = true) :
    runs p (c :: rest) = [c] :: runs p rest := by
  cases rest with
  | nil => simp [runs, fields, hc]
  | cons d more => simp [runs, fields, hc, hrest d rfl]

theorem runs_joined (hc : p c = false) (hd : p d = false) (more : List Char) :
    ∃ first others, runs p (d :: more) = first :: others ∧
      runs p (c :: d :: more) = (c :: first) :: others := by
  cases hfields : fields p more with
  | nil => exact absurd hfields (fields_ne_nil p more)
  | cons first others => simp [runs, fields, hc, hd, hfields]

theorem intercalate_runs_eq_nil_iff (separator cs : List Char) :
    separator.intercalate (runs p cs) = [] ↔ runs p cs = [] := by
  cases hruns : runs p cs with
  | nil => simp
  | cons first others =>
    have hmem : first ∈ runs p cs := hruns ▸ List.mem_cons_self
    have hne : first ≠ [] := by simpa using (List.mem_filter.mp hmem).2
    cases others <;> simp [List.intercalate, hne]

end Runs

/-- The words of a text with single spaces between them are its characters on one line. -/
theorem intercalate_runs (cs : List Char) : [' '].intercalate (runs isBlank cs) = squeezed cs := by
  induction cs with
  | nil => rfl
  | cons c rest ih =>
    cases hc : isBlank c with
    | true => rw [runs_separator hc, squeezed_blank hc, ih]
    | false =>
      -- The character is a word of its own, or goes on with the next one.
      by_cases hrest : ∀ d ∈ rest.head?, isBlank d = true
      · rw [runs_alone hc hrest, squeezed, if_neg (by simp [hc])]
        by_cases hnil : runs isBlank rest = []
        · have hsqueezed : squeezed rest = [] := by rw [← ih, hnil]; rfl
          simp [hnil, hsqueezed]
        · have hsqueezed : squeezed rest ≠ [] := by
            rwa [← ih, ne_eq, intercalate_runs_eq_nil_iff]
          obtain ⟨d, more, rfl⟩ : ∃ d more, rest = d :: more := by
            refine List.exists_cons_of_ne_nil ?_
            rintro rfl
            exact hsqueezed rfl
          rw [List.intercalate_cons_of_ne_nil hnil, ih,
            if_pos (by simpa [hrest d rfl] using hsqueezed)]
          rfl
      · push Not at hrest
        obtain ⟨d, hd, hblank⟩ := hrest
        obtain ⟨more, rfl⟩ := List.head?_eq_some_iff.mp hd
        have hd : isBlank d = false := by simpa using hblank
        obtain ⟨first, others, hruns, hjoined⟩ := runs_joined hc hd more
        rw [hjoined, squeezed, if_neg (by simp [hc]), if_neg (by simp [hd]), ← ih, hruns]
        cases others <;> rfl

theorem toList_singleSpaced (s : String) : (singleSpaced s).toList = squeezed s.toList := by
  rw [← intercalate_runs, singleSpaced, words, String.toList_intercalate, List.map_map]
  simp [Function.comp_def]

theorem spaced_singleSpaced (s : String) : SingleSpaced (singleSpaced s).toList :=
  toList_singleSpaced s ▸ singleSpaced_squeezed s.toList

end OpenApiClient.Text

import OpenApiClient.Proofs.SpacedTexts
import OpenApiClient.Text.Basic

/-! # Texts without tags

Tags are taken out of a text from left to right, and what is left is put on one line. Neither brings
up a new tag: an opening bracket stays only where its closing bracket follows at once, or where no
closing bracket follows at all, and both are still so afterwards. The texts that stay as they are are
those without tags in which all white space is single spaces between other characters, and every text
has become one of them after one turn. -/
namespace OpenApiClient.Text

variable {cs rest kept tag inner : List Char} {c d : Char}

/-! ## Tags -/

/-- Whether a text is a tag: between its brackets is something, and no closing bracket. -/
def IsTag (tag : List Char) : Prop :=
  ∃ inner, inner ≠ [] ∧ '>' ∉ inner ∧ tag = '<' :: (inner ++ ['>'])

/-- Whether a text starts with a tag. -/
def TagAhead (cs : List Char) : Prop := ∃ tag, IsTag tag ∧ tag <+: cs

def HasTag (cs : List Char) : Prop := ∃ tag, IsTag tag ∧ tag <:+: cs

/-- What is kept of a text when each tag that is ahead, from left to right, is taken out. -/
inductive Untagged : List Char → List Char → Prop
  | nil : Untagged [] []
  | tag {tag rest kept : List Char} (htag : IsTag tag) (h : Untagged rest kept) :
      Untagged (tag ++ rest) kept
  | char {c : Char} {rest kept : List Char} (hno : ¬ TagAhead (c :: rest))
      (h : Untagged rest kept) : Untagged (c :: rest) (c :: kept)

theorem IsTag.ne_nil (h : IsTag tag) : tag ≠ [] := by
  obtain ⟨inner, -, -, rfl⟩ := h
  simp

theorem opensTag_iff : opensTag rest = true ↔ rest.head? ≠ some '>' ∧ '>' ∈ rest := by
  simp [opensTag]

theorem tagAhead_cons_iff : TagAhead (c :: rest) ↔ c = '<' ∧ opensTag rest = true := by
  rw [opensTag_iff]
  constructor
  · rintro ⟨tag, ⟨inner, hne, hinner, rfl⟩, more, heq⟩
    obtain ⟨first, inner, rfl⟩ := List.exists_cons_of_ne_nil hne
    obtain ⟨rfl, rfl⟩ := List.cons.inj heq
    have hfirst : first ≠ '>' := fun h => hinner (h ▸ List.mem_cons_self)
    exact ⟨rfl, by simpa using hfirst, by simp⟩
  · rintro ⟨rfl, hhead, hmem⟩
    obtain ⟨inner, more, rfl, hinner⟩ := List.eq_append_cons_of_mem hmem
    refine ⟨_, ⟨inner, ?_, hinner, rfl⟩, more, by simp⟩
    rintro rfl
    exact hhead rfl

theorem hasTag_cons_iff : HasTag (c :: cs) ↔ TagAhead (c :: cs) ∨ HasTag cs := by
  simp only [HasTag, TagAhead, List.infix_cons_iff, and_or_left, exists_or]

private theorem not_hasTag_nil : ¬ HasTag [] := by
  rintro ⟨tag, htag, hinfix⟩
  exact htag.ne_nil (List.eq_nil_of_infix_nil hinfix)

/-- A tag that starts before what is kept of a text starts there before the text already, as long as
no closing bracket is new, and one in front stays in front. -/
theorem TagAhead.of_kept (h : TagAhead (c :: kept)) (hmem : '>' ∈ kept → '>' ∈ rest)
    (hhead : rest.head? = some '>' → kept.head? = some '>') : TagAhead (c :: rest) := by
  rw [tagAhead_cons_iff, opensTag_iff] at h ⊢
  obtain ⟨hc, hfirst, hkept⟩ := h
  exact ⟨hc, mt hhead hfirst, hmem hkept⟩

/-! ## Tags taken out -/

private theorem insideTag_append (h : '>' ∉ inner) (rest : List Char) :
    insideTag (inner ++ '>' :: rest) = outsideTags rest := by
  induction inner with
  | nil => simp [insideTag]
  | cons c inner ih =>
    obtain ⟨hc, hinner⟩ := not_or.mp (mt List.mem_cons.mpr h)
    rw [List.cons_append, insideTag, if_neg (Ne.symm hc), ih hinner]

theorem outsideTags_tag (h : IsTag tag) (rest : List Char) :
    outsideTags (tag ++ rest) = outsideTags rest := by
  have hahead : TagAhead (tag ++ rest) := ⟨tag, h, List.prefix_append tag rest⟩
  obtain ⟨inner, -, hinner, rfl⟩ := h
  rw [List.cons_append] at hahead ⊢
  rw [outsideTags, if_pos (tagAhead_cons_iff.mp hahead), List.append_assoc]
  exact insideTag_append hinner rest

theorem outsideTags_char (h : ¬ TagAhead (c :: rest)) :
    outsideTags (c :: rest) = c :: outsideTags rest := by
  rw [outsideTags, if_neg (mt tagAhead_cons_iff.mpr h)]

theorem untagged_outsideTags (cs : List Char) : Untagged cs (outsideTags cs) := by
  -- A tag has several characters, so the induction is on the length.
  induction hn : cs.length using Nat.strongRecOn generalizing cs with
  | ind n ih =>
    subst hn
    cases cs with
    | nil => exact .nil
    | cons c rest =>
      by_cases hahead : TagAhead (c :: rest)
      · obtain ⟨tag, htag, behind, heq⟩ := hahead
        have hshorter : behind.length < (c :: rest).length := by
          rw [← heq, List.length_append]
          exact Nat.lt_add_of_pos_left (List.length_pos_iff.mpr htag.ne_nil)
        rw [← heq, outsideTags_tag htag]
        exact .tag htag (ih _ hshorter behind rfl)
      · rw [outsideTags_char hahead]
        exact .char hahead (ih _ (Nat.lt_succ_self _) rest rfl)

/-- What is kept of a text when its tags are taken out is what is outside of them. -/
theorem untagged_iff : Untagged cs kept ↔ outsideTags cs = kept := by
  constructor
  · intro h
    induction h with
    | nil => rfl
    | tag htag _ ih => rw [outsideTags_tag htag, ih]
    | char hno _ ih => rw [outsideTags_char hno, ih]
  · rintro rfl
    exact untagged_outsideTags cs

namespace Untagged

private theorem sublist (h : Untagged cs kept) : kept.Sublist cs := by
  induction h with
  | nil => exact .slnil
  | tag _ _ ih => exact ih.trans (List.sublist_append_right _ _)
  | char _ _ ih => exact ih.cons_cons _

theorem head?_eq (h : Untagged cs kept) (hcs : cs.head? = some '>') : kept.head? = some '>' := by
  cases h with
  | nil => cases hcs
  | tag htag _ =>
    obtain ⟨inner, -, -, rfl⟩ := htag
    simp at hcs
  | char _ _ => exact hcs

/-- Where a new tag would start in what is kept, a tag would have been taken out. -/
theorem not_hasTag (h : Untagged cs kept) : ¬ HasTag kept := by
  induction h with
  | nil => exact not_hasTag_nil
  | tag _ _ ih => exact ih
  | char hno h ih =>
    rw [hasTag_cons_iff, not_or]
    exact ⟨fun hahead => hno (hahead.of_kept (fun hmem => h.sublist.subset hmem) h.head?_eq), ih⟩

theorem self (h : ¬ HasTag cs) : Untagged cs cs := by
  induction cs with
  | nil => exact .nil
  | cons c rest ih =>
    obtain ⟨hahead, hrest⟩ := not_or.mp (mt hasTag_cons_iff.mpr h)
    exact .char hahead (ih hrest)

end Untagged

/-! ## Plain texts -/

theorem not_hasTag_squeezed (h : ¬ HasTag cs) : ¬ HasTag (squeezed cs) := by
  have hclosing : isBlank '>' = false := rfl
  induction cs with
  | nil => exact h
  | cons c rest ih =>
    obtain ⟨hahead, hrest⟩ := not_or.mp (mt hasTag_cons_iff.mpr h)
    have ih := ih hrest
    cases hc : isBlank c with
    | true => exact squeezed_blank hc rest ▸ ih
    | false =>
      rcases squeezed_cons_cases hc rest with ⟨⟨d, hd, hblank⟩, -, heq⟩ | heq
      · have hspace : ¬ TagAhead (' ' :: squeezed rest) := by simp [tagAhead_cons_iff]
        rw [heq, hasTag_cons_iff, hasTag_cons_iff, not_or, not_or]
        refine ⟨fun h => hahead (h.of_kept ?_ fun hfirst => ?_), hspace, ih⟩
        · exact fun hmem => mem_of_mem_squeezed hclosing (by simpa using hmem)
        · -- White space is no closing bracket.
          obtain rfl : d = '>' := by simpa [hfirst, eq_comm] using hd
          cases hblank
      · rw [heq, hasTag_cons_iff, not_or]
        refine ⟨fun h => hahead (h.of_kept (mem_of_mem_squeezed hclosing) fun hfirst => ?_), ih⟩
        obtain ⟨rest, rfl⟩ := List.head?_eq_some_iff.mp hfirst
        rcases squeezed_cons_cases hclosing rest with ⟨-, -, heq⟩ | heq <;> rw [heq] <;> rfl

theorem toList_plain (s : String) : (plain s).toList = squeezed (outsideTags s.toList) := by
  rw [plain, toList_singleSpaced, String.toList_ofList]

structure IsPlain (cs : List Char) : Prop where
  no_tag : ¬ HasTag cs
  spaced : SingleSpaced cs

theorem isPlain_plain (s : String) : IsPlain (plain s).toList := by
  rw [toList_plain]
  exact ⟨not_hasTag_squeezed (untagged_outsideTags s.toList).not_hasTag,
    singleSpaced_squeezed (outsideTags s.toList)⟩

/-- The texts that stay as they are. -/
theorem plain_eq_self_iff (s : String) : plain s = s ↔ IsPlain s.toList := by
  constructor
  · intro h
    exact h ▸ isPlain_plain s
  · rintro ⟨hno, hspaced⟩
    apply String.toList_injective
    rw [toList_plain, untagged_iff.mp (.self hno), squeezed_eq_self hspaced]

example : plain "a <<b>\u2028<>c  < d" = "a <>c < d" := by decide

end OpenApiClient.Text

import OpenApiClient.Naming.Operation
import Mathlib.Data.List.DropRight

/-! # Ids without their tag

Each turn takes the tag away from the front of an id, with the underscores behind it, as long as the id
starts with the tag as a whole word. Since a turn leaves no underscore in front, what has been taken away
in the end is repetitions of the tag, each with the underscores behind it or at the end of the id. There
is one way only to divide an id into such repetitions and a rest that does not start with the tag. -/
namespace OpenApiClient.Naming

variable {tag oid removed rest : List Char} {turns : Nat}

/-- An id starts with the tag as a whole word: it is the tag, or an underscore follows. -/
def StartsWithTag (tag oid : List Char) : Prop := oid = tag ∨ tag ++ ['_'] <+: oid

instance : Decidable (StartsWithTag tag oid) := inferInstanceAs (Decidable (_ ∨ _))

def afterTag (tag oid : List Char) : List Char := (oid.drop tag.length).dropWhile (· == '_')

/-- Turns that are made as long as an id starts with the tag, with their number and what they leave. -/
inductive Turns (tag : List Char) : List Char → Nat → List Char → Prop
  | stop {oid : List Char} (h : ¬ StartsWithTag tag oid) : Turns tag oid 0 oid
  | turn {oid rest : List Char} {turns : Nat} (h : StartsWithTag tag oid)
      (hrest : Turns tag (afterTag tag oid) turns rest) : Turns tag oid (turns + 1) rest

/-- Repetitions of a tag before the rest of an id. Underscores follow each of them but one that ends the
id. -/
inductive Repetitions (tag : List Char) : List Char → List Char → Prop
  | none {rest : List Char} : Repetitions tag [] rest
  | last : Repetitions tag tag []
  | more {removed rest : List Char} (n : Nat) (h : Repetitions tag removed rest) :
      Repetitions tag (tag ++ '_' :: (List.replicate n '_' ++ removed)) rest

/-- The rest of an id behind all repetitions of its tag. -/
structure Stripped (tag oid rest : List Char) : Prop where
  repetitions : ∃ removed, oid = removed ++ rest ∧ Repetitions tag removed rest
  no_underscore : rest.head? ≠ some '_'
  no_tag : ¬ StartsWithTag tag rest

/-! ## Turns -/

theorem stripTagChars_of_starts (htag : tag ≠ []) (h : StartsWithTag tag oid) :
    stripTagChars tag oid = stripTagChars tag (afterTag tag oid) := by
  rw [stripTagChars, if_pos ⟨htag, h.imp_right List.isPrefixOf_iff_prefix.mpr⟩, afterTag]

theorem stripTagChars_of_not_starts (h : ¬ StartsWithTag tag oid) : stripTagChars tag oid = oid := by
  rw [stripTagChars, if_neg]
  exact fun hstarts => h (hstarts.2.imp_right List.isPrefixOf_iff_prefix.mp)

/-- The turns come to an end. -/
theorem exists_turns (htag : tag ≠ []) (oid : List Char) :
    ∃ turns, Turns tag oid turns (stripTagChars tag oid) := by
  induction oid using stripTagChars.induct tag with
  | case1 oid h ih =>
    have hstarts : StartsWithTag tag oid := h.2.imp_right List.isPrefixOf_iff_prefix.mp
    obtain ⟨turns, hturns⟩ := ih
    rw [stripTagChars_of_starts htag hstarts]
    exact ⟨turns + 1, .turn hstarts hturns⟩
  | case2 oid h =>
    have hnot : ¬ StartsWithTag tag oid := fun hstarts =>
      h ⟨htag, hstarts.imp_right List.isPrefixOf_iff_prefix.mpr⟩
    rw [stripTagChars_of_not_starts hnot]
    exact ⟨0, .stop hnot⟩

private theorem head?_afterTag (tag oid : List Char) : (afterTag tag oid).head? ≠ some '_' := by
  intro h
  have hfirst := List.head?_dropWhile_not (· == '_') (oid.drop tag.length)
  rw [← afterTag, h] at hfirst
  cases hfirst

/-- A turn takes away the tag and underscores, and everything if there are none. -/
theorem StartsWithTag.eq_append (h : StartsWithTag tag oid) :
    oid = tag ∧ afterTag tag oid = [] ∨
      ∃ n, oid = tag ++ '_' :: (List.replicate n '_' ++ afterTag tag oid) := by
  rcases h with rfl | ⟨more, rfl⟩
  · exact .inl ⟨rfl, by simp [afterTag]⟩
  · right
    have hall : ∀ c ∈ more.takeWhile (· == '_'), c = '_' := fun c hc =>
      beq_iff_eq.mp (List.mem_takeWhile_imp (p := (· == '_')) hc)
    have hafter : afterTag tag (tag ++ ['_'] ++ more) = more.dropWhile (· == '_') := by
      rw [afterTag, List.append_assoc, List.drop_left]
      exact List.dropWhile_cons_of_pos rfl
    refine ⟨(more.takeWhile (· == '_')).length, ?_⟩
    rw [hafter, ← List.eq_replicate_of_mem hall, List.takeWhile_append_dropWhile, List.append_assoc,
      List.singleton_append]

theorem Turns.repetitions (h : Turns tag oid turns rest) :
    ∃ removed, oid = removed ++ rest ∧ Repetitions tag removed rest := by
  induction h with
  | stop h => exact ⟨[], rfl, .none⟩
  | @turn oid rest turns h hrest ih =>
    obtain ⟨removed, hafter, hremoved⟩ := ih
    rcases h.eq_append with ⟨rfl, hnil⟩ | ⟨n, heq⟩
    · obtain ⟨rfl, rfl⟩ := List.append_eq_nil_iff.mp (hafter.symm.trans hnil)
      exact ⟨oid, (List.append_nil oid).symm, .last⟩
    · refine ⟨_, ?_, .more n hremoved⟩
      rw [heq, hafter]
      simp

theorem Turns.no_tag (h : Turns tag oid turns rest) : ¬ StartsWithTag tag rest := by
  induction h with
  | stop h => exact h
  | turn _ _ ih => exact ih

theorem Turns.no_underscore (h : Turns tag oid turns rest) (hoid : oid.head? ≠ some '_') :
    rest.head? ≠ some '_' := by
  induction h with
  | stop _ => exact hoid
  | turn _ _ ih => exact ih (head?_afterTag _ _)

/-! ## The rest of an id -/

theorem dropWhile_underscore (h : oid.head? ≠ some '_') : oid.dropWhile (· == '_') = oid := by
  cases oid with
  | nil => rfl
  | cons c rest => exact List.dropWhile_cons_of_neg (by simpa using h)

theorem Repetitions.head?_append (htag : tag ≠ []) (h : Repetitions tag removed rest) :
    (removed ++ rest).head? = rest.head? ∨ (removed ++ rest).head? = tag.head? := by
  cases h with
  | none => exact .inl rfl
  | last => exact .inr (by rw [List.append_nil])
  | more n h => exact .inr (by rw [List.append_assoc, List.head?_append_of_ne_nil _ htag])

/-- Repetitions of the tag are stripped of an id, and nothing else. -/
theorem Repetitions.stripTagChars_append (htag : tag ≠ []) (h : Repetitions tag removed rest)
    (hoid : (removed ++ rest).head? ≠ some '_') (hhead : rest.head? ≠ some '_')
    (hrest : ¬ StartsWithTag tag rest) : stripTagChars tag (removed ++ rest) = rest := by
  induction h with
  | none => exact stripTagChars_of_not_starts hrest
  | last =>
    have hnil : afterTag tag (tag ++ []) = [] := by simp [afterTag]
    rw [stripTagChars_of_starts htag (.inl (List.append_nil tag)), hnil,
      stripTagChars_of_not_starts hrest]
  | @more removed rest n h ih =>
    have hfirst : tag.head? ≠ some '_' := by
      rwa [List.append_assoc, List.head?_append_of_ne_nil _ htag] at hoid
    have hnext : (removed ++ rest).head? ≠ some '_' := by
      rcases h.head?_append htag with heq | heq <;> rw [heq] <;> assumption
    have hstarts : StartsWithTag tag (tag ++ '_' :: (List.replicate n '_' ++ removed) ++ rest) :=
      .inr ⟨List.replicate n '_' ++ (removed ++ rest), by simp⟩
    have hafter : afterTag tag (tag ++ '_' :: (List.replicate n '_' ++ removed) ++ rest) =
        removed ++ rest := by
      rw [afterTag, List.append_assoc, List.drop_left, List.cons_append, List.append_assoc,
        List.dropWhile_cons_of_pos rfl, List.dropWhile_append_of_pos (by simp),
        dropWhile_underscore hnext]
    rw [stripTagChars_of_starts htag hstarts, hafter, ih hnext hhead hrest]

theorem toList_stripTag {oid tag : String} (htag : tag ≠ "") (hoid : oid.toList.head? ≠ some '_') :
    (stripTag oid tag).toList = stripTagChars tag.toList oid.toList := by
  obtain ⟨turns, hturns⟩ := exists_turns (fun hnil => htag (String.toList_injective hnil)) oid.toList
  rw [stripTag, String.toList_ofList, dropWhile_underscore (hturns.no_underscore hoid)]

/-- An id that starts with no underscore is stripped of its tag in a number of turns. What is left is
the one rest of the id that starts neither with an underscore nor with the tag and has nothing but
repetitions of the tag before it, each of them with underscores behind it or at the end of the id. An id
that does not start with the tag stays as it is. -/
theorem stripTag_exact {oid tag : String} (htag : tag ≠ "") (hoid : oid.toList.head? ≠ some '_') :
    (∃ turns, Turns tag.toList oid.toList turns (stripTag oid tag).toList) ∧
      (∀ rest : String,
        stripTag oid tag = rest ↔ Stripped tag.toList oid.toList rest.toList) ∧
      (¬ StartsWithTag tag.toList oid.toList → stripTag oid tag = oid) := by
  have hne : tag.toList ≠ [] := fun hnil => htag (String.toList_injective hnil)
  have hchars := toList_stripTag htag hoid
  obtain ⟨turns, hturns⟩ := exists_turns hne oid.toList
  refine ⟨⟨turns, hchars ▸ hturns⟩, fun rest => ⟨?_, ?_⟩, fun hnot => ?_⟩
  · rintro rfl
    rw [hchars]
    exact ⟨hturns.repetitions, hturns.no_underscore hoid, hturns.no_tag⟩
  · rintro ⟨⟨removed, heq, hremoved⟩, hhead, hrest⟩
    refine String.toList_injective ?_
    rw [heq] at hoid
    rw [hchars, heq, hremoved.stripTagChars_append hne hoid hhead hrest]
  · exact String.toList_injective (hchars.trans (stripTagChars_of_not_starts hnot))

/-- Two repetitions of the tag, the second with two underscores behind it. -/
theorem stripTag_exact_items : stripTag "items_items__get" "items" = "get" ∧
    (∃ turns, Turns "items".toList "items_items__get".toList turns "get".toList) ∧
    Stripped "items".toList "items_items__get".toList "get".toList ∧
    stripTag "itemsget" "items" = "itemsget" := by
  have hget : stripTag "items_items__get" "items" = "get" := by decide +kernel
  obtain ⟨hturns, hexact, -⟩ :=
    @stripTag_exact "items_items__get" "items" (by decide) (by decide)
  obtain ⟨-, -, hkept⟩ := @stripTag_exact "itemsget" "items" (by decide) (by decide)
  exact ⟨hget, hget ▸ hturns, (hexact _).mp hget, hkept (by decide)⟩

end OpenApiClient.Naming

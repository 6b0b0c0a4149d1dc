import OpenApiClient.Naming.Operation
import OpenApiClient.Proofs.Looks
import OpenApiClient.Settings
import OpenApiClient.Text.Identifier

/-! # Plain names

The names of methods and parameters are put together from small Latin letters, digits and
underscores. A name starts with a letter, or with an underscore that keeps a digit from being first.
None is a keyword, since a reserved word gets an underscore at its end. -/
namespace OpenApiClient

theorem Settings.reservedWords_subset {settings : Settings} {reserved : List String}
    (h : settings.reserved = .ok reserved) : settings.reservedWords ⊆ reserved := by
  unfold Settings.reserved at h
  split at h
  · exact Except.ok.inj h ▸ List.subset_cons_self _ _
  · exact Except.ok.inj h ▸ List.Subset.refl _
  · cases h

namespace Naming

/-- Whether a character may stand in a plain name. -/
def isNameLetter (c : Char) : Bool := isWordChar c || c == '_'

/-- Whether a text starts with a small Latin letter, or with an underscore before a digit. -/
def startsPlain : List Char → Bool
  | '_' :: c :: _ => isPlainDigit c
  | c :: _ => isSmall c
  | [] => false

/-- A name that the generated code can have for a method or a parameter. -/
structure IsPlainName (name : String) : Prop where
  starts : startsPlain name.toList
  letters : ∀ c ∈ name.toList, isNameLetter c
  not_keyword : name ∉ keywords

theorem isNameLetter_of_isWordChar {c : Char} (h : isWordChar c) : isNameLetter c := by
  simp [isNameLetter, h]

theorem underscore_not_mem_keywords : ∀ word ∈ keywords, '_' ∉ word.toList := by decide

theorem startsPlain_append {cs : List Char} (h : startsPlain cs) (ds : List Char) :
    startsPlain (cs ++ ds) := by
  match cs with
  | '_' :: c :: rest => exact h
  | [c] =>
    have hc : c ≠ '_' := fun hc => by simp [hc, startsPlain, isSmall] at h
    simpa [startsPlain, hc] using h
  | c :: d :: rest =>
    by_cases hc : c = '_'
    · subst hc
      exact h
    · simpa [startsPlain, hc] using h

theorem IsPlainName.append {name : String} (h : IsPlainName name) {suffix : String}
    (hletters : ∀ c ∈ suffix.toList, isNameLetter c) (hunderscore : '_' ∈ suffix.toList) :
    IsPlainName (name ++ suffix) where
  starts := by
    rw [String.toList_append]
    exact startsPlain_append h.starts _
  letters c hc := by
    rw [String.toList_append] at hc
    exact (List.mem_append.mp hc).elim (h.letters c) (hletters c)
  not_keyword hkeyword := by
    refine underscore_not_mem_keywords _ hkeyword ?_
    rw [String.toList_append]
    exact List.mem_append_right _ hunderscore

theorem IsPlainName.chars {name : String} (h : IsPlainName name) :
    (∃ first rest, name.toList = first :: rest ∧ (isSmall first ∨ first = '_')) ∧
      ¬ ['_', '_'] <+: name.toList := by
  have hstarts := h.starts
  match hname : name.toList with
  | [] => simp [hname, startsPlain] at hstarts
  | [c] =>
    have hc : c ≠ '_' := fun hc => by simp [hname, hc, startsPlain, isSmall] at hstarts
    exact ⟨⟨c, [], rfl, .inl (by simpa [hname, startsPlain, hc] using hstarts)⟩, by simp⟩
  | c :: d :: rest =>
    by_cases hc : c = '_'
    · subst hc
      refine ⟨⟨_, _, rfl, .inr rfl⟩, fun ⟨tail, htail⟩ => ?_⟩
      obtain rfl : '_' = d := by simpa using (List.cons.inj (List.cons.inj htail).2).1
      simp [hname, startsPlain, isPlainDigit] at hstarts
    · refine ⟨⟨c, _, rfl, .inl (by simpa [hname, startsPlain, hc] using hstarts)⟩, ?_⟩
      exact fun ⟨tail, htail⟩ => hc (List.cons.inj htail).1.symm

/-! ## Snake case -/

structure IsSnake (cs : List Char) : Prop where
  first : ∀ c ∈ cs.head?, isWordChar c
  letters : ∀ c ∈ cs, isNameLetter c

theorem IsSnake.append {cs ds : List Char} (h : IsSnake cs) (hne : cs ≠ [])
    (hds : ∀ c ∈ ds, isNameLetter c) : IsSnake (cs ++ ds) where
  first c hc := by
    rw [List.head?_append_of_ne_nil _ hne] at hc
    exact h.first c hc
  letters c hc := (List.mem_append.mp hc).elim (h.letters c) (hds c)

theorem IsSnake.word {w : List Char} (h : ∀ c ∈ w, isWordChar c) : IsSnake w where
  first c hc := h c (List.mem_of_mem_head? hc)
  letters c hc := isNameLetter_of_isWordChar (h c hc)

private theorem isSnake_intercalate {words : List (List Char)} (hne : ∀ w ∈ words, w ≠ [])
    (h : ∀ w ∈ words, IsSnake w) : IsSnake (List.intercalate ['_'] words) := by
  match words with
  | [] => exact ⟨by simp, by simp⟩
  | [w] =>
    rw [List.intercalate_singleton]
    exact h w List.mem_cons_self
  | w :: w' :: rest =>
    have htail : IsSnake (List.intercalate ['_'] (w' :: rest)) :=
      isSnake_intercalate (fun v hv => hne v (List.mem_cons_of_mem _ hv))
        fun v hv => h v (List.mem_cons_of_mem _ hv)
    rw [List.intercalate_cons_cons, List.append_assoc]
    refine (h w List.mem_cons_self).append (hne w List.mem_cons_self) fun c hc => ?_
    rcases List.mem_append.mp hc with hc | hc
    · rw [List.mem_singleton.mp hc]
      rfl
    · exact htail.letters c hc

theorem isSnake_snakeCase (name : String) : IsSnake (snakeCase name).toList := by
  rw [snakeCase, String.toList_ofList, snakeChars]
  exact isSnake_intercalate (fun w hw => ne_nil_of_mem_wordChars hw)
    fun w hw => .word fun c hc => isWordChar_of_mem_wordChars hw hc

/-! ## Guarded names -/

theorem toNat_lt_of_isNameLetter {c : Char} (h : isNameLetter c) : c.toNat < 128 := by
  simp only [isNameLetter, isWordChar, isSmall, isPlainDigit, Bool.or_eq_true, Bool.and_eq_true,
    decide_eq_true_eq, beq_iff_eq, Char.le_def, UInt32.le_iff_toNat_le] at h
  rcases h with (⟨-, h⟩ | ⟨-, h⟩) | rfl
  · exact Nat.lt_of_le_of_lt h (by decide)
  · exact Nat.lt_of_le_of_lt h (by decide)
  · decide

theorem of_isNameLetter {P : Char → Prop} (hall : ∀ n < 128, P (Char.ofNat n)) {c : Char}
    (h : isNameLetter c) : P c := by
  simpa using hall c.toNat (toNat_lt_of_isNameLetter h)

theorem isDigitSign_eq {c : Char} (h : isNameLetter c) : Text.isDigitSign c = isPlainDigit c :=
  of_isNameLetter (P := fun c => Text.isDigitSign c = isPlainDigit c) (by decide) h

/-- A plain name is one that can be read as one name. -/
theorem IsPlainName.isIdentifier {name : String} (h : IsPlainName name) :
    Text.isIdentifier name := by
  have hstart : ∀ n < 128, (isSmall (Char.ofNat n) ∨ Char.ofNat n = '_') →
      Text.isNameStart (Char.ofNat n) := by decide
  have hcontinue : ∀ n < 128, isNameLetter (Char.ofNat n) →
      Text.isNameContinue (Char.ofNat n) := by decide
  obtain ⟨first, rest, hname, hfirst⟩ := h.chars.1
  have hletters := h.letters
  rw [hname] at hletters
  obtain ⟨hletter, hrest⟩ := List.forall_mem_cons.mp hletters
  rw [Text.isIdentifier, hname, Text.isIdentifierChars, Bool.and_eq_true, List.all_eq_true]
  refine ⟨?_, fun c hc => ?_⟩
  · exact of_isNameLetter (P := fun c => (isSmall c ∨ c = '_') → Text.isNameStart c) hstart hletter
      hfirst
  · exact of_isNameLetter (P := fun c => isNameLetter c → Text.isNameContinue c) hcontinue
      (hrest c hc) (hrest c hc)

/-- An underscore before a first digit makes a name plain, but for keywords. -/
theorem guardDigit_starts {isDigit : Char → Bool} {name : String} (h : IsSnake name.toList)
    (hne : name ≠ "") (hdigit : ∀ c, isNameLetter c → isDigit c = isPlainDigit c) :
    startsPlain (guardDigit isDigit name).toList ∧
      ∀ c ∈ (guardDigit isDigit name).toList, isNameLetter c := by
  unfold guardDigit
  split
  · rename_i c rest hname
    have hletter : isNameLetter c := h.letters c (hname ▸ List.mem_cons_self)
    have hword : isWordChar c := h.first c (by simp [hname])
    rw [hdigit c hletter]
    by_cases hc : isPlainDigit c
    · rw [if_pos hc, String.toList_append, hname]
      refine ⟨hc, fun d hd => ?_⟩
      rcases List.mem_append.mp hd with hd | hd
      · rw [List.mem_singleton.mp hd]
        rfl
      · exact h.letters d (hname ▸ hd)
    · rw [if_neg hc, hname]
      refine ⟨?_, fun d hd => h.letters d (hname ▸ hd)⟩
      have hsmall : isSmall c := by simpa [isWordChar, hc] using hword
      have hne' : c ≠ '_' := fun hc => by simp [hc, isSmall] at hsmall
      simpa [startsPlain, hne'] using hsmall
  · rename_i hname
    exact absurd (String.toList_injective hname) hne

private theorem isPlainName_escapeReserved {reserved : List String} (h : ∀ w ∈ keywords, w ∈ reserved)
    {name : String} (hstarts : startsPlain name.toList)
    (hletters : ∀ c ∈ name.toList, isNameLetter c) : IsPlainName (escapeReserved reserved name) := by
  unfold escapeReserved
  split
  · refine ⟨?_, fun c hc => ?_, fun hkeyword => ?_⟩
    · rw [String.toList_append]
      exact startsPlain_append hstarts _
    · rw [String.toList_append] at hc
      rcases List.mem_append.mp hc with hc | hc
      · exact hletters c hc
      · rw [List.mem_singleton.mp hc]
        rfl
    · refine underscore_not_mem_keywords _ hkeyword ?_
      rw [String.toList_append]
      exact List.mem_append_right _ List.mem_cons_self
  · rename_i hfree
    exact ⟨hstarts, hletters, fun hkeyword => hfree (h _ hkeyword)⟩

theorem isPlainName_guarded {reserved : List String} (h : ∀ w ∈ keywords, w ∈ reserved)
    {isDigit : Char → Bool} (hdigit : ∀ c, isNameLetter c → isDigit c = isPlainDigit c)
    {name : String} (hsnake : IsSnake name.toList) (hne : name ≠ "") :
    IsPlainName (escapeReserved reserved (guardDigit isDigit name)) := by
  obtain ⟨hstarts, hletters⟩ := guardDigit_starts hsnake hne hdigit
  exact isPlainName_escapeReserved h hstarts hletters

theorem isSnake_or_param (name : String) :
    IsSnake (if snakeCase name = "" then "param" else snakeCase name).toList ∧
      (if snakeCase name = "" then "param" else snakeCase name) ≠ "" := by
  split
  · exact ⟨.word (Text.forall_mem_of_all (by decide)), by decide⟩
  · rename_i hne
    exact ⟨isSnake_snakeCase name, hne⟩

theorem isPlainName_identifier {reserved : List String} (h : ∀ w ∈ keywords, w ∈ reserved)
    (name : String) : IsPlainName (identifier reserved name) := by
  obtain ⟨hsnake, hne⟩ := isSnake_or_param name
  exact isPlainName_guarded h (fun _ _ => rfl) hsnake hne

theorem startsPlain_escapeReserved {reserved : List String} {name : String}
    (h : startsPlain name.toList) : startsPlain (escapeReserved reserved name).toList := by
  unfold escapeReserved
  split
  · rw [String.toList_append]
    exact startsPlain_append h _
  · exact h

theorem startsPlain_identifier (reserved : List String) (name : String) :
    startsPlain (identifier reserved name).toList := by
  obtain ⟨hsnake, hne⟩ := isSnake_or_param name
  exact startsPlain_escapeReserved (guardDigit_starts hsnake hne fun _ _ => rfl).1

/-! ## Names of operations -/

theorem stripTagChars_subset (tag oid : List Char) : stripTagChars tag oid ⊆ oid := by
  induction oid using stripTagChars.induct tag with
  | case1 oid h ih =>
    rw [stripTagChars, if_pos h]
    exact List.Subset.trans (List.Subset.trans ih (List.dropWhile_sublist _).subset)
      (List.drop_subset _ _)
  | case2 oid h => rw [stripTagChars, if_neg h]; exact List.Subset.refl _

/-- An id without its tag starts with no underscore, whatever the tag is. -/
theorem isSnake_stripTag {oid : String} (tag : String) (h : ∀ c ∈ oid.toList, isNameLetter c) :
    IsSnake (stripTag oid tag).toList := by
  have hsubset : ((stripTagChars tag.toList oid.toList).dropWhile (· == '_')) ⊆ oid.toList :=
    List.Subset.trans (List.dropWhile_sublist _).subset (stripTagChars_subset _ _)
  rw [stripTag, String.toList_ofList]
  refine ⟨fun c hc => ?_, fun c hc => h c (hsubset hc)⟩
  have hletter := h c (hsubset (List.mem_of_mem_head? hc))
  have hfirst := List.head?_dropWhile_not (· == '_') (stripTagChars tag.toList oid.toList)
  rw [Option.mem_def.mp hc] at hfirst
  have hne : (c == '_') = false := hfirst
  simpa [isNameLetter, hne] using hletter

theorem isPlainName_functionName {reserved : List String} (h : ∀ w ∈ keywords, w ∈ reserved)
    {oid tag name : String} (hoid : IsSnake oid.toList)
    (hname : functionName reserved oid tag = .ok name) : IsPlainName name := by
  have hchosen : IsSnake (if stripTag oid tag = "" then oid else stripTag oid tag).toList := by
    split
    · exact hoid
    · exact isSnake_stripTag tag hoid.letters
  unfold functionName at hname
  dsimp only at hname
  generalize (if stripTag oid tag = "" then oid else stripTag oid tag) = chosen at hname hchosen
  split at hname
  · cases hname
  · rename_i hne
    obtain rfl := Except.ok.inj hname
    exact isPlainName_guarded h (fun _ => isDigitSign_eq) hchosen hne

section FallbackIds

variable {s t : String}

def HasLetters (s : String) : Prop := ∀ c ∈ s.toList, isNameLetter c

theorem HasLetters.append (hs : HasLetters s) (ht : HasLetters t) : HasLetters (s ++ t) := by
  intro c hc
  rw [String.toList_append] at hc
  exact (List.mem_append.mp hc).elim (hs c) (ht c)

theorem HasLetters.dropEnd (h : HasLetters s) (count : Nat) : HasLetters (Text.dropEnd count s) := by
  intro c hc
  rw [Text.dropEnd, String.toList_ofList] at hc
  exact h c (List.take_subset _ _ hc)

theorem hasLetters_of_all (h : s.toList.all isNameLetter) : HasLetters s :=
  List.all_eq_true.mp h

private theorem HasLetters.plural (h : HasLetters s) : HasLetters (plural s) := by
  unfold Naming.plural
  split
  · exact h
  · split
    · exact (h.dropEnd 1).append (hasLetters_of_all rfl)
    · exact h.append (hasLetters_of_all rfl)

private theorem HasLetters.singular (h : HasLetters s) : HasLetters (singular s) := by
  unfold Naming.singular
  split
  · exact (h.dropEnd 3).append (hasLetters_of_all rfl)
  · split
    · exact h.dropEnd 2
    · split
      · exact h.dropEnd 1
      · exact h

private theorem hasLetters_intercalate {words : List String} (h : ∀ w ∈ words, HasLetters w) :
    HasLetters (String.intercalate "_" words) := by
  match words with
  | [] => exact hasLetters_of_all rfl
  | [w] =>
    rw [String.intercalate_singleton]
    exact h w List.mem_cons_self
  | w :: w' :: rest =>
    rw [String.intercalate_cons_cons]
    exact ((h w List.mem_cons_self).append (hasLetters_of_all rfl)).append
      (hasLetters_intercalate fun v hv => h v (List.mem_cons_of_mem _ hv))

theorem fallbackId_eq (method path : String) : ∃ action rest, fallbackId method path =
    action ++ ("_" ++ rest) ∧ HasLetters rest ∧ action ∈ ["get", verb (Text.lower method)] := by
  have hletters : ∀ word ∈ (resourceSegments path).map snakeCase, HasLetters word := by
    intro word hword
    obtain ⟨segment, -, rfl⟩ := List.mem_map.mp hword
    exact (isSnake_snakeCase segment).letters
  have haction : (if Text.lower method = "get" ∧ (pathSegments path).any isPlaceholder = true
      then "get" else verb (Text.lower method)) ∈ ["get", verb (Text.lower method)] := by
    split <;> simp
  unfold fallbackId
  dsimp only
  generalize (if Text.lower method = "get" ∧ (pathSegments path).any isPlaceholder = true
      then "get" else verb (Text.lower method)) = action at haction ⊢
  split
  · have hroot : "_root" = "_" ++ "root" := by decide
    exact ⟨_, "root", congrArg _ hroot, hasLetters_of_all rfl, by simp⟩
  · rename_i resource hresources
    have hresource : HasLetters resource := hletters _ (hresources ▸ List.mem_cons_self)
    refine ⟨_, _, String.append_assoc, ?_, haction⟩
    split
    · exact hresource.plural
    · split
      · exact hresource.singular
      · exact hresource
  · exact ⟨_, _, String.append_assoc, hasLetters_intercalate hletters, haction⟩

end FallbackIds

end Naming

end OpenApiClient

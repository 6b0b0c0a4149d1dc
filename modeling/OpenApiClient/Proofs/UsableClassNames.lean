import OpenApiClient.Proofs.AnnotationGrammar
import OpenApiClient.Proofs.SharedIdentifiers

/-! # Class names that can be used

The class name of a tag is always one name, a capital with letters and digits behind it. But the module
of the class binds some names of that form itself, and three keywords are of that form too. The names of
models are kept from them, and those of classes are not: a tag gets one of them exactly where its words
are those of the name. As the words of a class name can be read back where none has a digit, there is one
such tag for each of these names. -/
namespace OpenApiClient

namespace Naming

variable {name other : String} {ws words : List (List Char)}

/-- The names that the module of a class imports, modules apart. -/
def importedNames : List String := ["Any", "IO", "Mapping", "Sequence"]

def boundNames : List String := ["False", "None", "True"] ++ importedNames

/-- Whether a name can be given to a class in such a module. -/
structure IsUsableClass (name : String) : Prop where
  identifier : Text.isIdentifier name
  keyword : name ∉ keywords
  imported : name ∉ importedNames

def clashingTags : List String := ["false", "none", "true", "any", "i_o", "mapping", "sequence"]

/-! ## Reading the words of a class name -/

def AreLetters (words : List (List Char)) : Prop := ∀ w ∈ words, ∀ c ∈ w, isPlainDigit c = false

theorem startsDigit_eq_false {w : List Char} (h : ∀ c ∈ w, isPlainDigit c = false) :
    startsDigit w = false := by
  cases w with
  | nil => rfl
  | cons c rest => exact h c List.mem_cons_self

theorem eq_of_foldr_glueWord (hletters : AreLetters words) (h : ws.foldr glueWord [] = words) :
    ws = words := by
  induction ws generalizing words with
  | nil => exact h
  | cons w ws ih =>
    rw [List.foldr_cons] at h
    cases hglued : ws.foldr glueWord [] with
    | nil =>
      have hnil : ws = [] := ih (by simp [AreLetters]) hglued
      rw [hnil, ← h, hnil]
      rfl
    | cons next rest =>
      rw [hglued, glueWord] at h
      split at h
      · rename_i hdigit
        -- The digit at the start of the next word would be in the glued one.
        have hnext : ∀ c ∈ next, isPlainDigit c = false := by
          intro c hc
          exact hletters (w ++ next) (h ▸ List.mem_cons_self) c (List.mem_append_right _ hc)
        rw [startsDigit_eq_false hnext] at hdigit
        cases hdigit
      · obtain ⟨rfl⟩ := h
        have hrest : AreLetters (next :: rest) := fun v hv =>
          hletters v (List.mem_cons_of_mem _ hv)
        rw [ih hrest hglued]

private theorem foldr_glueWord_of_letters (hletters : AreLetters words) :
    words.foldr glueWord [] = words := by
  induction words with
  | nil => rfl
  | cons w words ih =>
    obtain ⟨-, hwords⟩ := List.forall_mem_cons.mp hletters
    rw [List.foldr_cons, ih hwords]
    cases words with
    | nil => rfl
    | cons next rest =>
      rw [glueWord, startsDigit_eq_false (hwords next List.mem_cons_self), if_neg (by simp)]

/-- Words without digits are shown by the names alone that are made of them, but for the word that
stands in for none. -/
theorem classWords_eq_iff (hletters : AreLetters words) (hne : words ≠ [])
    (hmodel : words ≠ [['m', 'o', 'd', 'e', 'l']]) (cs : List Char) :
    classWords cs = words ↔ wordChars cs = words := by
  have hfirst : ∀ w rest, words = w :: rest → startsDigit w = false := fun w rest h =>
    startsDigit_eq_false (hletters w (h ▸ List.mem_cons_self))
  unfold classWords
  constructor
  · intro h
    refine eq_of_foldr_glueWord hletters ?_
    split at h
    · exact absurd h.symm hmodel
    · rename_i w rest hglued
      split at h
      · rename_i hdigit
        have hw : ∀ c ∈ w, isPlainDigit c = false := fun c hc =>
          hletters ('t' :: w) (h ▸ List.mem_cons_self) c (List.mem_cons_of_mem _ hc)
        rw [startsDigit_eq_false hw] at hdigit
        cases hdigit
      · exact hglued.trans h
  · intro h
    rw [h, foldr_glueWord_of_letters hletters]
    cases words with
    | nil => exact absurd rfl hne
    | cons w rest => simp [hfirst w rest rfl]

/-- Of two names in snake case, one of them in letters, both have one class name only when they are
the same. -/
theorem className_eq_iff_of_letters (hname : snakeCase name = name) (hother : snakeCase other = other)
    (hletters : AreLetters (wordChars other.toList)) (hne : other ≠ "") (hmodel : other ≠ "model") :
    className name = className other ↔ name = other := by
  have hread : ∀ {s : String} {words}, snakeCase s = s → wordChars s.toList = words →
      s = String.ofList (List.intercalate ['_'] words) := by
    rintro s words hs rfl
    exact hs.symm
  have hwords : wordChars other.toList ≠ [] := fun h => hne (hread hother h)
  have hwords' : wordChars other.toList ≠ [['m', 'o', 'd', 'e', 'l']] := fun h =>
    hmodel (hread hother h)
  rw [className_eq_iff, (classWords_eq_iff hletters hwords hwords' _).mpr rfl,
    classWords_eq_iff hletters hwords hwords']
  constructor
  · intro h
    rw [hread hname h, ← hread hother rfl]
  · rintro rfl
    rfl

/-! ## The names that are bound -/

private theorem className_clashingTags : clashingTags.map className = boundNames := by decide

/-- A tag has a class name that is bound exactly where it is one of those with such a name. -/
theorem className_mem_boundNames_iff (hname : snakeCase name = name) :
    className name ∈ boundNames ↔ name ∈ clashingTags := by
  have hclashing : ∀ tag ∈ clashingTags, snakeCase tag = tag ∧
      (∀ w ∈ wordChars tag.toList, w.all fun c => !isPlainDigit c) ∧ tag ≠ "" ∧ tag ≠ "model" := by
    decide
  rw [← className_clashingTags, List.mem_map]
  constructor
  · rintro ⟨tag, htag, heq⟩
    obtain ⟨hsnake, hall, hne, hmodel⟩ := hclashing tag htag
    have hletters : AreLetters (wordChars tag.toList) := fun w hw c hc => by
      simpa using List.all_eq_true.mp (hall w hw) c hc
    rwa [(className_eq_iff_of_letters hname hsnake hletters hne hmodel).mp heq.symm]
  · exact fun h => ⟨name, h, rfl⟩

theorem isUsableClass_className_iff (name : String) :
    IsUsableClass (className name) ↔ className name ∉ boundNames := by
  have hform := isModelName_className name
  have hkeywords : ∀ w ∈ keywords, isModelName w ↔ w ∈ ["False", "None", "True"] := by
    decide
  have hcapital : ∀ w ∈ ["False", "None", "True"], w ∈ keywords := by decide
  constructor
  · intro h hbound
    rcases List.mem_append.mp hbound with hkeyword | himported
    · exact h.keyword (hcapital _ hkeyword)
    · exact h.imported himported
  · intro h
    refine ⟨Schema.isIdentifier_of_isModelName hform, fun hkeyword => h ?_, fun himported => h ?_⟩
    · exact List.mem_append_left _ ((hkeywords _ hkeyword).mp hform)
    · exact List.mem_append_right _ himported

/-- The class name of a tag in snake case can be used unless the tag is one of a few. -/
theorem isUsableClass_iff (hname : snakeCase name = name) :
    IsUsableClass (className name) ↔ name ∉ clashingTags := by
  rw [isUsableClass_className_iff, className_mem_boundNames_iff hname]

end Naming

namespace Operation

open Schema Schema.RegistryM Naming

variable {document : Value} {settings : Settings} {r t : Registry} {built : List TagGroup}

theorem className_of_mem_groups (h : outcome (groups document settings) r = (.ok built, t))
    {g : TagGroup} (hg : g ∈ built) : ∃ m ∈ g.methods, g.className = className m.tag := by
  obtain ⟨shared, listed, gs, -, -, hcollects, rfl⟩ := groups_ok h
  obtain ⟨old, hold, rfl⟩ := List.mem_map.mp ((inOrder_perm _).mem_iff.mp hg)
  obtain ⟨first, hfirst, hclass⟩ := hcollects.collected.className old hold
  have htag : first.tag ∈ old.renamed.methods.map ClientMethod.tag := by
    rw [map_renamed old ClientMethod.tag fun _ _ => rfl]
    exact List.mem_map_of_mem (List.mem_of_mem_head? hfirst)
  obtain ⟨m, hm, heq⟩ := List.mem_map.mp htag
  exact ⟨m, hm, heq ▸ hclass⟩

/-- The class name of a tag is an identifier always, and no keyword and none of the imported names
unless the snake case of the tag is one of a few. So the class of a group can be used exactly where
the tag of its methods is none of these. -/
theorem class_usable_iff (text : String) :
    Text.isIdentifier (className (snakeCase text)) ∧
    (IsUsableClass (className (snakeCase text)) ↔ snakeCase text ∉ clashingTags) ∧
    (outcome (groups document settings) r = (.ok built, t) → ∀ g ∈ built, g.methods ≠ [] ∧
      ∀ m ∈ g.methods, IsUsableClass g.className ↔ m.tag ∉ clashingTags) := by
  refine ⟨?_, isUsableClass_iff (snakeCase_snakeCase text), fun h g hg => ?_⟩
  · exact isIdentifier_of_isModelName (isModelName_className _)
  · obtain ⟨first, hfirst, hclass⟩ := className_of_mem_groups h hg
    refine ⟨List.ne_nil_of_mem hfirst, fun m hm => ?_⟩
    obtain ⟨htag, reserved, hreserved, hname⟩ := name_of_mem_groups h hg hfirst
    obtain ⟨htag', reserved', hreserved', hname'⟩ := name_of_mem_groups h hg hm
    obtain rfl := Except.ok.inj (hreserved.symm.trans hreserved')
    have hsame : SameWords first.tag m.tag := by
      rw [← htag, ← htag', ← identifier_eq_iff_sameWords reserved, ← hname, ← hname']
    rw [hclass, isUsableClass_iff htag]
    -- A tag without words shares its module with `param`, and neither of them is bound.
    rcases hsame with heq | ⟨hnil, hparam⟩ | ⟨hparam, hnil⟩
    · rw [heq]
    · rw [hnil, hparam]
      decide
    · rw [hnil, hparam]
      decide

def noneTagRun : Except Fault (List TagGroup) × Registry := taggedRun [("/a", "list", "none")]

theorem classes_noneTagRun : noneTagRun.1.map (List.map TagGroup.className) =
    .ok ["None"] := by decide +kernel

theorem class_usable_users : ∃ built, noneTagRun.1 = .ok built ∧
    built.map TagGroup.className = ["None"] ∧
    IsUsableClass (className (snakeCase "Users")) ∧
    ∀ g ∈ built, g.methods ≠ [] ∧
      ∀ m ∈ g.methods, IsUsableClass g.className ↔ m.tag ∉ clashingTags := by
  have hclasses := classes_noneTagRun
  cases hrun : noneTagRun with
  | mk x r =>
    rw [hrun] at hclasses
    obtain ⟨built, rfl, hbuilt⟩ := except_map_ok_iff.mp hclasses
    obtain ⟨-, husers, hgroups⟩ := class_usable_iff "Users"
    exact ⟨built, rfl, hbuilt, husers.mpr (by decide), hgroups hrun⟩

/-- The class of the tag `none` is called by a keyword. -/
theorem not_always_usable : ¬ ∀ (document : Value) (settings : Settings) (built : List TagGroup)
    (t : Registry), outcome (groups document settings) {} = (.ok built, t) →
    ∀ g ∈ built, IsUsableClass g.className := by
  intro h
  have hclasses := classes_noneTagRun
  cases hrun : noneTagRun with
  | mk x r =>
    rw [hrun] at hclasses
    obtain ⟨built, rfl, hbuilt⟩ := except_map_ok_iff.mp hclasses
    obtain ⟨g, rfl, hg⟩ := List.map_eq_singleton_iff.mp hbuilt
    have husable := h _ _ _ _ hrun g List.mem_cons_self
    exact husable.keyword (hg ▸ by decide)

end Operation

end OpenApiClient

import OpenApiClient.Proofs.DocstringReading
import OpenApiClient.Proofs.EscapedNames
import OpenApiClient.Proofs.NormalNames

/-! # Names that share an identifier

The snake case of a name neither starts nor ends with an underscore. So the one that guards a first
digit and the one that escapes a reserved word can be taken away again, whichever words are reserved, and
an identifier shows what it was made of. A name without words shows nothing of itself: it gets the
identifier of the name `param`. These are the only names of different snake cases that share an
identifier, and so are their tags the only ones that share a module. -/
namespace OpenApiClient

namespace Text

variable {p : Char → Bool} {before cs after : List Char}

/-- What is put around a text that neither starts nor ends with such characters is trimmed away. -/
theorem trim_padded (hbefore : ∀ c ∈ before, p c) (hafter : ∀ c ∈ after, p c) (hne : cs ≠ [])
    (hfirst : ∀ c ∈ cs.head?, p c = false) (hlast : ∀ c ∈ cs.getLast?, p c = false) :
    trim p (before ++ (cs ++ after)) = cs := by
  have hfront : (cs ++ after).dropWhile p = cs ++ after := by
    obtain ⟨c, rest, rfl⟩ := List.exists_cons_of_ne_nil hne
    exact List.dropWhile_cons_of_neg (by simp [hfirst c rfl])
  have hback : (cs ++ after).rdropWhile p = cs.rdropWhile p := by
    rw [List.rdropWhile, List.reverse_append,
      List.dropWhile_append_of_pos fun c hc => hafter c (List.mem_reverse.mp hc), List.rdropWhile]
  have hkept : cs.rdropWhile p = cs := by
    refine List.rdropWhile_eq_self_iff.mpr fun hne => ?_
    simp [hlast _ (List.getLast?_eq_some_getLast hne)]
  rw [trim_eq_rdropWhile, List.dropWhile_append_of_pos hbefore, hfront, hback, hkept]

end Text

namespace Naming

variable {reserved : List String} {cs : List Char}

/-! ## Reading an identifier -/

def shownWords (name : String) : String := if snakeCase name = "" then "param" else snakeCase name

/-- Two snake cases that make the same identifiers: one and the same, or none at all and `param`. -/
def SameWords (a b : String) : Prop := a = b ∨ a = "" ∧ b = "param" ∨ a = "param" ∧ b = ""

theorem shownWords_eq_iff (a b : String) :
    shownWords a = shownWords b ↔ SameWords (snakeCase a) (snakeCase b) := by
  unfold shownWords SameWords
  by_cases ha : snakeCase a = ""
  · by_cases hb : snakeCase b = ""
    · simp [ha, hb]
    · rw [if_pos ha, if_neg hb, ha, eq_comm]
      simp [Ne.symm hb]
  · by_cases hb : snakeCase b = ""
    · simp [ha, hb]
    · simp [ha, hb]

private theorem SnakeForm.last (h : SnakeForm cs) : ∀ c ∈ cs.getLast?, isWordChar c := by
  induction h with
  | word h => exact fun c hc => h.chars c (List.mem_of_mem_getLast? hc)
  | join h hrest ih =>
    rwa [List.getLast?_append_cons, List.getLast?_cons_of_ne_nil hrest.ne_nil]

private theorem snakeForm_shownWords (name : String) : SnakeForm (shownWords name).toList := by
  unfold shownWords
  split
  · exact .word ⟨by decide, Text.forall_mem_of_all (by decide)⟩
  · rename_i hne
    rw [snakeCase, String.toList_ofList]
    refine (snakeChars_eq_nil_or_form name.toList).resolve_left fun hnil => hne ?_
    rw [snakeCase, hnil]

theorem identifier_eq_shownWords (reserved : List String) (name : String) :
    identifier reserved name =
      escapeReserved reserved (guardDigit isPlainDigit (shownWords name)) := rfl

theorem identifier_padded (reserved : List String) (name : String) :
    ∃ before after, (∀ c ∈ before, c = '_') ∧ (∀ c ∈ after, c = '_') ∧
      (identifier reserved name).toList = before ++ ((shownWords name).toList ++ after) := by
  have hguard : ∃ before, (∀ c ∈ before, c = '_') ∧
      (guardDigit isPlainDigit (shownWords name)).toList = before ++ (shownWords name).toList := by
    unfold guardDigit
    split
    · split
      · exact ⟨['_'], by simp, String.toList_append⟩
      · exact ⟨[], by simp, (List.nil_append _).symm⟩
    · exact ⟨[], by simp, (List.nil_append _).symm⟩
  obtain ⟨before, hbefore, heq⟩ := hguard
  have hescape : ∀ free : String, ∃ after, (∀ c ∈ after, c = '_') ∧
      (escapeReserved reserved free).toList = free.toList ++ after := by
    intro free
    unfold escapeReserved
    split
    · exact ⟨['_'], by simp, String.toList_append⟩
    · exact ⟨[], by simp, (List.append_nil _).symm⟩
  obtain ⟨after, hafter, hwhole⟩ := hescape (guardDigit isPlainDigit (shownWords name))
  refine ⟨before, after, hbefore, hafter, ?_⟩
  rw [← List.append_assoc, ← heq, ← hwhole, identifier_eq_shownWords]

/-- Without the underscores at its ends an identifier is the words that it is made of. -/
theorem trim_identifier (reserved : List String) (name : String) :
    Text.trim (· == '_') (identifier reserved name).toList = (shownWords name).toList := by
  have hform := snakeForm_shownWords name
  have hinside : ∀ {c : Char}, isWordChar c → (c == '_') = false := by
    intro c hc
    simpa using fun heq : c = '_' => absurd (heq ▸ hc) (by decide)
  obtain ⟨before, after, hbefore, hafter, heq⟩ := identifier_padded reserved name
  rw [heq]
  refine Text.trim_padded (fun c hc => beq_iff_eq.mpr (hbefore c hc))
    (fun c hc => beq_iff_eq.mpr (hafter c hc)) hform.ne_nil (fun c hc => ?_)
    fun c hc => hinside (hform.last c hc)
  exact hinside ((isSnake_or_param name).1.first c hc)

theorem identifier_eq_iff_sameWords (reserved : List String) (a b : String) :
    identifier reserved a = identifier reserved b ↔ SameWords (snakeCase a) (snakeCase b) := by
  rw [← shownWords_eq_iff]
  constructor
  · intro h
    refine String.toList_injective ?_
    rw [← trim_identifier reserved a, h, trim_identifier reserved b]
  · intro h
    rw [identifier_eq_shownWords, identifier_eq_shownWords, h]

theorem snakeCase_snakeCase (name : String) : snakeCase (snakeCase name) = snakeCase name := by
  rcases snakeChars_eq_nil_or_form name.toList with hnil | hform
  · rw [snakeCase.eq_def name, hnil]
    rfl
  · rw [snakeCase.eq_def (snakeCase name), snakeCase, String.toList_ofList, hform.snakeChars_eq]

end Naming

namespace Operation

open Schema Schema.RegistryM Naming

variable {document : Value} {settings : Settings} {r t : Registry} {built : List TagGroup}

theorem snakeCase_tagOf {declaration : Value} {operation tag : String}
    (h : tagOf declaration operation = .ok tag) : snakeCase tag = tag := by
  simp only [tagOf, except_bind_ok_iff] at h
  obtain ⟨tags, -, count, -, h⟩ := h
  split at h
  · obtain ⟨_, hthrow, -⟩ := except_bind_ok_iff.mp h
    cases hthrow
  · obtain ⟨_, -, h⟩ := except_bind_ok_iff.mp h
    obtain ⟨text, -, h⟩ := except_bind_ok_iff.mp h
    rw [← except_pure_ok_iff.mp h, snakeCase_snakeCase]

/-- A group is named by the identifier of the tag of each of its methods. -/
theorem name_of_mem_groups (h : outcome (groups document settings) r = (.ok built, t))
    {g : TagGroup} (hg : g ∈ built) {m : ClientMethod} (hm : m ∈ g.methods) :
    snakeCase m.tag = m.tag ∧
      ∃ reserved, settings.reserved = .ok reserved ∧ g.name = identifier reserved m.tag := by
  obtain ⟨shared, listed, gs, -, -, hcollects, rfl⟩ := groups_ok h
  obtain ⟨old, hold, rfl⟩ := List.mem_map.mp ((inOrder_perm _).mem_iff.mp hg)
  obtain ⟨o, ho, name, hbuilt⟩ :=
    (exists_of_forall₂ (forall₂_renamed (hcollects.collected.methods old hold))).2 m hm
  have hmodule : moduleName? settings o = some old.name := by simpa using (List.mem_filter.mp ho).2
  have hbuilds := hbuilt.builds
  obtain ⟨reserved, hreserved, -⟩ := hbuilds.name
  exact ⟨snakeCase_tagOf hbuilds.tag, reserved, hreserved,
    Option.some.inj (hmodule.symm.trans (hbuilds.moduleName? hreserved))⟩

/-- Whatever words are reserved, two names have one identifier exactly when they have one snake case, or
one of them has no words and the snake case of the other is `param`. So two methods of one group are of
one tag, or one of their tags has no words and the other is `param`; and two parameters with one
identifier have names for which the same holds. -/
theorem identifiers_shared_iff :
    (∀ (reserved : List String) (a b : String),
      identifier reserved a = identifier reserved b ↔ SameWords (snakeCase a) (snakeCase b)) ∧
    (∀ (document : Value) (settings : Settings) (r t : Registry) (built : List TagGroup),
      outcome (groups document settings) r = (.ok built, t) →
      ∀ g ∈ built, ∀ m ∈ g.methods, ∀ m' ∈ g.methods, SameWords m.tag m'.tag) ∧
    ∀ (document : Value) (shared : Members) (settings : Settings) (parameter parameter' : Value)
      (p p' : Parameter) (r t r' t' : Registry),
      outcome (classify document shared settings parameter) r = (.ok p, t) →
      outcome (classify document shared settings parameter') r' = (.ok p', t') →
      p.identifier = p'.identifier → SameWords (snakeCase p.name) (snakeCase p'.name) := by
  refine ⟨identifier_eq_iff_sameWords, fun document settings r t built h g hg m hm m' hm' => ?_,
    fun document shared settings parameter parameter' p p' r t r' t' h h' hsame => ?_⟩
  · obtain ⟨htag, reserved, hreserved, hname⟩ := name_of_mem_groups h hg hm
    obtain ⟨htag', reserved', hreserved', hname'⟩ := name_of_mem_groups h hg hm'
    obtain rfl := Except.ok.inj (hreserved.symm.trans hreserved')
    rw [← htag, ← htag', ← identifier_eq_iff_sameWords reserved, ← hname, ← hname']
  · obtain ⟨reserved, hreserved, hident⟩ := (classify_ok h).identifier
    obtain ⟨reserved', hreserved', hident'⟩ := (classify_ok h').identifier
    obtain rfl := Except.ok.inj (hreserved.symm.trans hreserved')
    rw [← identifier_eq_iff_sameWords reserved, ← hident, ← hident', hsame]

def namelessTagRun : Except Fault (List TagGroup) × Registry :=
  taggedRun [("/a", "list", "日本"), ("/b", "get", "param")]

def stringParameterRun (name : String) : Except Fault Parameter × Registry :=
  outcome (classify .empty [] .default (ClientMethod.namedParameter "query" name "string")) {}

theorem identifiers_shared_nameless : ∃ built p p',
    namelessTagRun.1 = .ok built ∧
    built.map (fun g => (g.name, g.methods.map ClientMethod.tag)) = [("param", ["", "param"])] ∧
    (∀ g ∈ built, ∀ m ∈ g.methods, ∀ m' ∈ g.methods, SameWords m.tag m'.tag) ∧
    (stringParameterRun "sortBy").1 = .ok p ∧ (stringParameterRun "Sort-By").1 = .ok p' ∧
    p.identifier = p'.identifier ∧ SameWords (snakeCase p.name) (snakeCase p'.name) := by
  have htags : namelessTagRun.1.map
      (List.map fun g => (g.name, g.methods.map ClientMethod.tag)) =
      .ok [("param", ["", "param"])] := by decide +kernel
  have hident : ∀ name ∈ ["sortBy", "Sort-By"],
      (stringParameterRun name).1.map Parameter.identifier = .ok "sort_by" := by decide +kernel
  have hname := hident "sortBy" (by simp)
  have hname' := hident "Sort-By" (by simp)
  cases hrun : namelessTagRun with
  | mk x r =>
    cases hfirst : stringParameterRun "sortBy" with
    | mk y s =>
      cases hsecond : stringParameterRun "Sort-By" with
      | mk z s' =>
        rw [hrun] at htags
        rw [hfirst] at hname
        rw [hsecond] at hname'
        obtain ⟨built, rfl, hbuilt⟩ := except_map_ok_iff.mp htags
        obtain ⟨p, rfl, hp⟩ := except_map_ok_iff.mp hname
        obtain ⟨p', rfl, hp'⟩ := except_map_ok_iff.mp hname'
        obtain ⟨-, hgroups, hparameters⟩ := identifiers_shared_iff
        exact ⟨built, p, p', rfl, hbuilt, hgroups _ _ _ _ _ hrun, rfl, rfl, hp.trans hp'.symm,
          hparameters _ _ _ _ _ _ _ _ _ _ _ hfirst hsecond (hp.trans hp'.symm)⟩

/-- The empty name and the name `param` have one identifier, and different snake cases. -/
theorem not_snakeCase_eq_of_identifier : ¬ ∀ a b : String,
    identifier Settings.defaultReservedWords a = identifier Settings.defaultReservedWords b →
      snakeCase a = snakeCase b := by
  intro h
  exact absurd (h "" "param" (by decide)) (by decide)

end Operation

end OpenApiClient

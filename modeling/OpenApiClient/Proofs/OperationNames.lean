import OpenApiClient.Proofs.CollectedGroups
import OpenApiClient.Proofs.PlainNames

/-! # The names of methods are plain

The id of an operation is in snake case, declared or not, and so is what is left of it without the
tag. The verb and the count that a repeated name gets stand behind an underscore. -/
namespace OpenApiClient.Operation

open Schema Schema.RegistryM Naming

variable {settings : Settings} {o : ListedOperation} {m : ClientMethod} {name : String}

private theorem isSnake_fallbackId (method : HttpMethod) (path : String) :
    IsSnake (fallbackId method.name path).toList := by
  obtain ⟨action, rest, heq, hrest, haction⟩ := fallbackId_eq method.name path
  have hsmall : (action.toList.all fun c => isWordChar c) ∧ action.toList ≠ [] := by
    rcases List.mem_cons.mp haction with rfl | haction
    · decide
    · rw [List.mem_singleton.mp haction]
      cases method <;> decide
  have htail : HasLetters ("_" ++ rest) := (hasLetters_of_all rfl).append hrest
  rw [heq, String.toList_append]
  exact (IsSnake.word (List.all_eq_true.mp hsmall.1)).append hsmall.2 htail

theorem isSnake_idOf {declaration : Value} {method : HttpMethod} {path : Scalar}
    {operation : String} (h : idOf declaration method path = .ok operation) :
    IsSnake operation.toList := by
  simp only [idOf, except_bind_ok_iff] at h
  obtain ⟨declared, -, h⟩ := h
  split at h
  · obtain ⟨text, -, h⟩ := except_bind_ok_iff.mp h
    exact except_pure_ok_iff.mp h ▸ isSnake_snakeCase text
  · obtain ⟨text, -, h⟩ := except_bind_ok_iff.mp h
    exact except_pure_ok_iff.mp h ▸ isSnake_fallbackId method text

/-- A method has a plain name when it is built. -/
theorem Builds.isPlainName (h : Builds settings o m)
    (hkeywords : ∀ w ∈ keywords, w ∈ settings.reservedWords) : IsPlainName m.name := by
  obtain ⟨reserved, hreserved, hname⟩ := h.name
  refine isPlainName_functionName (fun w hw => ?_) (isSnake_idOf h.operation) hname
  exact Settings.reservedWords_subset hreserved (hkeywords w hw)

private theorem isPlainName_withVerb (h : IsPlainName name) (method : HttpMethod) :
    IsPlainName (withVerb name method) := by
  rw [withVerb, String.append_assoc]
  refine h.append (hasLetters_of_all ?_) ?_ <;> cases method <;> decide

private theorem isPlainName_numbered (h : IsPlainName name) (n : Nat) :
    IsPlainName (numbered name "_" n) := by
  cases n with
  | zero => exact h
  | succ n =>
    rw [numbered, String.append_assoc]
    refine h.append ((hasLetters_of_all rfl).append fun c hc => ?_) (by simp)
    have hdigit : isPlainDigit c := by
      simpa [Char.isDigit, isPlainDigit, Char.le_def] using isDigit_of_mem_toString hc
    exact isNameLetter_of_isWordChar (by simp [isWordChar, hdigit])

theorem isPlainName_distinctNames {methods : List (String × HttpMethod)}
    (h : ∀ m ∈ methods, IsPlainName m.1) (hname : name ∈ distinctNames methods) :
    IsPlainName name := by
  rw [distinctNames, appendCounts_eq] at hname
  obtain ⟨⟨base, n⟩, hbase, rfl⟩ := List.mem_map.mp hname
  have hmem : base ∈ appendVerbs [] methods :=
    List.count_pos_iff.mp (Nat.zero_lt_of_lt (by simpa using (mem_occurrences.mp hbase).2))
  refine isPlainName_numbered ?_ n
  rcases mem_appendVerbs hmem with hmem | ⟨m, hm, rfl⟩
  · obtain ⟨m, hm, rfl⟩ := List.mem_map.mp hmem
    exact h m hm
  · exact isPlainName_withVerb (h m hm) _

/-- When the keywords are reserved, every method of the groups of a document has for its name a small
Latin letter or an underscore with small Latin letters, digits and underscores behind it, which does
not start with two underscores and is no keyword. -/
theorem method_names_plain {document : Value} {built : List TagGroup} {r t : Registry}
    (hkeywords : ∀ w ∈ keywords, w ∈ settings.reservedWords)
    (h : outcome (groups document settings) r = (.ok built, t)) :
    ∀ g ∈ built, ∀ m ∈ g.methods,
      (∃ first rest, m.name.toList = first :: rest ∧ (isSmall first ∨ first = '_')) ∧
      (∀ c ∈ m.name.toList, isSmall c ∨ isPlainDigit c ∨ c = '_') ∧
      ¬ ['_', '_'] <+: m.name.toList ∧ m.name ∉ keywords := by
  obtain ⟨shared, listed, gs, -, -, hcollects, rfl⟩ := groups_ok h
  intro g hg m hm
  obtain ⟨old, hold, rfl⟩ := List.mem_map.mp ((inOrder_perm _).mem_iff.mp hg)
  have hplain : ∀ named ∈ old.namedMethods, IsPlainName named.1 := by
    intro named hnamed
    obtain ⟨m, hm, rfl⟩ := List.mem_map.mp hnamed
    obtain ⟨o, -, hbuilt⟩ := (exists_of_forall₂ (hcollects.collected.methods old hold)).2 m hm
    exact hbuilt.builds.isPlainName hkeywords
  have hname : m.name ∈ distinctNames old.namedMethods :=
    names_renamed old ▸ List.mem_map_of_mem hm
  have hm := isPlainName_distinctNames hplain hname
  refine ⟨hm.chars.1, fun c hc => ?_, hm.chars.2, hm.not_keyword⟩
  simpa [isNameLetter, isWordChar, or_assoc] using hm.letters c hc

def namedRun : Except Fault (List TagGroup) × Registry :=
  taggedRun [("/a", "Class", "users"), ("/b", "2fa", "users"), ("/c", "list", "users"),
    ("/d", "list", "users"), ("/orgs/parties", "", "users")]

theorem method_names_plain_users : ∃ built, namedRun.1 = .ok built ∧
    built.map (fun g => g.methods.map ClientMethod.name) =
      [["class_", "_2fa", "list", "list_get", "list_orgs_parties"]] ∧
    ∀ g ∈ built, ∀ m ∈ g.methods,
      (∃ first rest, m.name.toList = first :: rest ∧ (isSmall first ∨ first = '_')) ∧
      (∀ c ∈ m.name.toList, isSmall c ∨ isPlainDigit c ∨ c = '_') ∧
      ¬ ['_', '_'] <+: m.name.toList ∧ m.name ∉ keywords := by
  have hnames : namedRun.1.map (List.map fun g => g.methods.map ClientMethod.name) =
      .ok [["class_", "_2fa", "list", "list_get", "list_orgs_parties"]] := by decide +kernel
  cases hrun : namedRun with
  | mk x r =>
    rw [hrun] at hnames
    obtain ⟨built, rfl, hbuilt⟩ := except_map_ok_iff.mp hnames
    refine ⟨built, rfl, hbuilt, ?_⟩
    exact method_names_plain (by decide) hrun

end OpenApiClient.Operation

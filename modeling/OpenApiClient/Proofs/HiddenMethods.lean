import OpenApiClient.Proofs.EscapedNames
import OpenApiClient.Proofs.KeptNames
import OpenApiClient.Proofs.NamelessOperations
import OpenApiClient.Proofs.OperationNames

/-! # Methods that the constructor hides

The constructor of a class keeps the client of an instance under a name, and a method of that name is
never reached on the instance. Nothing but the reserved words keeps a method from that name, and it is
none of those reserved by default. Renaming does not give the name out, since all that it gives out
has an underscore, so the method that is hidden is the first of a group with that name of its own. The
name of the constructor itself has an underscore in front of another one, and no method has that. -/
namespace OpenApiClient

/-- The name under which the constructor keeps the client. -/
def clientName : String := "client"

def constructorName : String := "__init__"

def ClientMethod.ownName (m : ClientMethod) : String := Naming.ownName m.operation m.tag

namespace Naming

variable {oid tag word name : String} {reserved : List String}

private theorem isPlainDigit_of_isSmall {c : Char} (h : isSmall c) : isPlainDigit c = false := by
  simp only [isSmall, isPlainDigit, Bool.and_eq_true, Bool.and_eq_false_iff, decide_eq_true_eq,
    decide_eq_false_iff_not, Char.le_def, UInt32.le_iff_toNat_le] at h ⊢
  have ha : 'a'.val.toNat = 97 := rfl
  have h9 : '9'.val.toNat = 57 := rfl
  omega

theorem escapeReserved_eq_word_iff (hfree : '_' ∉ word.toList) :
    escapeReserved reserved name = word ↔ name = word ∧ word ∉ reserved := by
  unfold escapeReserved
  split
  · rename_i hreserved
    refine iff_of_false (fun h => hfree ?_) fun ⟨hname, hnot⟩ => hnot (hname ▸ hreserved)
    simp [← h]
  · rename_i hnot
    exact ⟨fun h => ⟨h, h ▸ hnot⟩, And.left⟩

theorem guardDigit_eq_word_iff {isDigit : Char → Bool} (hfree : '_' ∉ word.toList)
    (hdigit : ∀ c ∈ word.toList, isDigit c = false) : guardDigit isDigit name = word ↔ name = word := by
  unfold guardDigit
  split
  · rename_i c rest hname
    split
    · rename_i hc
      refine iff_of_false (fun h => hfree (by simp [← h])) fun h => ?_
      have hword := hdigit c (by simp [← h, hname])
      rw [hc] at hword
      cases hword
    · exact Iff.rfl
  · exact Iff.rfl

/-- A method gets a name of small letters only where it is named after that name, which is not
reserved. -/
theorem functionName_ok_iff (hne : word ≠ "") (hsmall : ∀ c ∈ word.toList, isSmall c) :
    functionName reserved oid tag = .ok word ↔ ownName oid tag = word ∧ word ∉ reserved := by
  have hfree : '_' ∉ word.toList := fun h => absurd (hsmall '_' h) (by decide)
  have hdigit : ∀ c ∈ word.toList, Text.isDigitSign c = false := by
    intro c hc
    have hletter : isNameLetter c := isNameLetter_of_isWordChar (by simp [isWordChar, hsmall c hc])
    rw [isDigitSign_eq hletter]
    exact isPlainDigit_of_isSmall (hsmall c hc)
  rw [functionName_eq]
  split
  · rename_i hempty
    refine iff_of_false (by simp) fun h => hne (h.1.symm.trans hempty)
  · rw [Except.ok.injEq, escapeReserved_eq_word_iff hfree, guardDigit_eq_word_iff hfree hdigit]

end Naming

namespace Operation

open Schema Schema.RegistryM Naming

variable {methods : List (String × HttpMethod)} {name : String} {i : Nat}

def IsSuffix (suffix : String) : Prop := suffix = "" ∨ '_' ∈ suffix.toList

private theorem IsSuffix.append {first second : String} (hfirst : IsSuffix first)
    (hsecond : IsSuffix second) : IsSuffix (first ++ second) := by
  unfold IsSuffix at *
  rcases hfirst with rfl | hfirst
  · rwa [String.empty_append]
  · exact .inr (by simp [hfirst])

private theorem numbered_eq_append (base : String) (n : Nat) :
    ∃ suffix, numbered base "_" n = base ++ suffix ∧ IsSuffix suffix := by
  cases n with
  | zero => exact ⟨"", String.append_empty.symm, .inl rfl⟩
  | succ n =>
    refine ⟨"_" ++ toString (n + 2), ?_, .inr (by simp)⟩
    rw [← String.append_assoc]
    rfl

/-- Every name that a method ends with is the one that it came with, and something behind it. -/
theorem getElem?_distinctNames_append (h : (distinctNames methods)[i]? = some name) :
    ∃ m suffix, methods[i]? = some m ∧ name = m.1 ++ suffix ∧ IsSuffix suffix := by
  rw [distinctNames, getElem?_appendCounts, Option.map_eq_some_iff] at h
  obtain ⟨verbed, hverbed, rfl⟩ := h
  rw [getElem?_appendVerbs, Option.map_eq_some_iff] at hverbed
  obtain ⟨m, hm, rfl⟩ := hverbed
  have hverb : ∃ suffix, (if m.1 ∈ [] ∨ NamedBefore methods i m.1 then withVerb m.1 m.2 else m.1) =
      m.1 ++ suffix ∧ IsSuffix suffix := by
    split
    · exact ⟨"_" ++ m.2.key, String.append_assoc, .inr (by simp)⟩
    · exact ⟨"", String.append_empty.symm, .inl rfl⟩
  obtain ⟨verb, hverb, hsuffix⟩ := hverb
  obtain ⟨count, hcount, hsuffix'⟩ := numbered_eq_append (m.1 ++ verb)
    (([] : List String).count (m.1 ++ verb) + ((appendVerbs [] methods).take i).count (m.1 ++ verb))
  refine ⟨m, verb ++ count, hm, ?_, hsuffix.append hsuffix'⟩
  rw [hverb, hcount, String.append_assoc]

/-- A name without underscores is given to a method alone that came with it, and is the first to. -/
theorem getElem?_distinctNames_free (hfree : '_' ∉ name.toList) :
    (distinctNames methods)[i]? = some name ↔
      (∃ method, methods[i]? = some (name, method)) ∧ ¬ NamedBefore methods i name := by
  have hgiven : ¬ GivenBefore methods i name := by
    rintro ⟨j, -, m, -, -, rfl⟩
    simp [withVerb] at hfree
  constructor
  · intro h
    obtain ⟨⟨base, method⟩, suffix, hm, hname, hsuffix⟩ := getElem?_distinctNames_append h
    have hempty : suffix = "" := hsuffix.resolve_right fun hmem => hfree (by simp [hname, hmem])
    obtain rfl : name = base := by rw [hname, hempty, String.append_empty]
    exact ⟨⟨method, hm⟩, ((getElem?_distinctNames_eq_iff hm).mp h).1⟩
  · rintro ⟨⟨method, hm⟩, hnew⟩
    exact (getElem?_distinctNames_eq_iff hm).mpr ⟨hnew, hgiven⟩

end Operation

namespace TagGroup

open Operation

variable {group : TagGroup} {m : ClientMethod} {i : Nat}

theorem getElem?_renamed : group.renamed.methods[i]? = some m ↔
    ∃ old, group.methods[i]? = some old ∧ m = { old with name := m.name } ∧
      (distinctNames group.namedMethods)[i]? = some m.name := by
  rw [renamed, List.getElem?_map, List.zip, List.getElem?_zipWith]
  cases hold : group.methods[i]? with
  | none => simp
  | some old =>
    cases hname : (distinctNames group.namedMethods)[i]? with
    | none => simp
    | some name =>
      simp only [Option.map_some, Option.some.injEq, exists_eq_left']
      constructor
      · rintro rfl
        exact ⟨rfl, rfl⟩
      · rintro ⟨hm, rfl⟩
        exact hm.symm

end TagGroup

namespace Operation

open Schema Schema.RegistryM Naming

variable {document : Value} {shared : Members} {settings : Settings} {built : List TagGroup}
  {r t : Registry} {m : ClientMethod} {o : ListedOperation}

theorem Builds.startsPlain (h : Builds settings o m) : startsPlain m.name.toList := by
  obtain ⟨reserved, -, hname⟩ := h.name
  have hoid := isSnake_idOf h.operation
  rw [functionName_eq] at hname
  split at hname
  · cases hname
  · rename_i hne
    rw [← Except.ok.inj hname]
    refine startsPlain_escapeReserved (guardDigit_starts ?_ hne fun _ => isDigitSign_eq).1
    unfold Naming.ownName
    split
    · exact hoid
    · exact isSnake_stripTag _ hoid.letters

theorem Builds.name_eq_iff (h : Builds settings o m) {word : String} (hne : word ≠ "")
    (hsmall : ∀ c ∈ word.toList, isSmall c) : m.name = word ↔
      m.ownName = word ∧ settings.modelsModule ≠ .text word ∧ word ∉ settings.reservedWords := by
  obtain ⟨reserved, hreserved, hname⟩ := h.name
  rw [← not_or, ← mem_reserved_iff hreserved, ClientMethod.ownName,
    ← functionName_ok_iff hne hsmall, hname, Except.ok.injEq]

/-- A group of a document is one that was collected, renamed. -/
theorem exists_collected (h : outcome (groups document settings) r = (.ok built, t)) {g : TagGroup}
    (hg : g ∈ built) : ∃ group : TagGroup, g = group.renamed ∧
      ∀ m ∈ group.methods, ∃ o, Builds settings o m := by
  obtain ⟨shared, listed, gs, -, -, hcollects, rfl⟩ := groups_ok h
  obtain ⟨group, hgroup, rfl⟩ := List.mem_map.mp ((inOrder_perm _).mem_iff.mp hg)
  refine ⟨group, rfl, fun m hm => ?_⟩
  obtain ⟨o, -, hbuilt⟩ := (exists_of_forall₂ (hcollects.collected.methods group hgroup)).2 m hm
  exact ⟨o, hbuilt.builds⟩

theorem startsPlain_renamed {group : TagGroup} (hbuilds : ∀ m ∈ group.methods, ∃ o, Builds settings o m)
    {i : Nat} (hm : group.renamed.methods[i]? = some m) : startsPlain m.name.toList := by
  obtain ⟨old, hold, -, hname⟩ := TagGroup.getElem?_renamed.mp hm
  obtain ⟨named, suffix, hplace, heq, -⟩ := getElem?_distinctNames_append hname
  rw [TagGroup.getElem?_namedMethods, hold] at hplace
  obtain rfl := Option.some.inj hplace
  obtain ⟨o, ho⟩ := hbuilds old (List.mem_of_getElem? hold)
  rw [heq, String.toList_append]
  exact startsPlain_append ho.startsPlain suffix.toList

/-- A method has a name of small letters in the end exactly where the name is not reserved, the method
is named after it, and no method of its group before it is. -/
theorem renamed_name_eq_iff {group : TagGroup}
    (hbuilds : ∀ m ∈ group.methods, ∃ o, Builds settings o m) {i : Nat}
    (hm : group.renamed.methods[i]? = some m) {word : String} (hne : word ≠ "")
    (hsmall : ∀ c ∈ word.toList, isSmall c) : m.name = word ↔
      (settings.modelsModule ≠ .text word ∧ word ∉ settings.reservedWords) ∧
      m.ownName = word ∧ word ∉ (group.renamed.methods.take i).map ClientMethod.ownName := by
  have hfree : '_' ∉ word.toList := fun h => absurd (hsmall '_' h) (by decide)
  have hnamed : ∀ old ∈ group.methods, old.name = word ↔ old.ownName = word ∧
      settings.modelsModule ≠ .text word ∧ word ∉ settings.reservedWords := by
    intro old hold
    obtain ⟨o, ho⟩ := hbuilds old hold
    exact ho.name_eq_iff hne hsmall
  obtain ⟨old, hold, hrenamed, hname⟩ := TagGroup.getElem?_renamed.mp hm
  have hplace : (∃ method, group.namedMethods[i]? = some (word, method)) ↔ old.name = word := by
    simp [TagGroup.getElem?_namedMethods, hold]
  have hfirst : m.name = word ↔ old.name = word ∧ ¬ NamedBefore group.namedMethods i word := by
    rw [← hplace, ← getElem?_distinctNames_free hfree, hname, Option.some.injEq]
  have hown : m.ownName = old.ownName := by
    rw [hrenamed]
    rfl
  rw [hfirst, hnamed old (List.mem_of_getElem? hold), hown, List.map_take,
    map_renamed group _ fun _ _ => rfl, ← List.map_take, and_right_comm, and_comm]
  refine and_congr_right fun hreserved => and_congr_right fun _ => not_congr ?_
  rw [NamedBefore, List.map_take, map_fst_namedMethods, ← List.map_take, List.mem_map, List.mem_map]
  refine exists_congr fun other => and_congr_right fun hother => ?_
  rw [hnamed other (List.mem_of_mem_take hother), and_iff_left hreserved]

/-- No method of a document has the name of the constructor. A method has the name that the
constructor keeps the client under exactly where that is neither the models module nor a reserved
word, the method is named after it, and no method of its group before it is. -/
theorem hidden_iff (h : outcome (groups document settings) r = (.ok built, t)) :
    ∀ g ∈ built, ∀ (i : Nat) (m : ClientMethod), g.methods[i]? = some m →
      m.name ≠ constructorName ∧
      (m.name = clientName ↔
        (settings.modelsModule ≠ .text clientName ∧ clientName ∉ settings.reservedWords) ∧
        m.ownName = clientName ∧ clientName ∉ (g.methods.take i).map ClientMethod.ownName) := by
  intro g hg i m hm
  obtain ⟨group, rfl, hbuilds⟩ := exists_collected h hg
  constructor
  · intro hinit
    have hstarts := startsPlain_renamed hbuilds hm
    rw [hinit] at hstarts
    exact absurd hstarts (by decide)
  · have hsmall : ∀ c ∈ clientName.toList, isSmall c := Text.forall_mem_of_all (by decide)
    exact renamed_name_eq_iff hbuilds hm (by decide) hsmall

def clientRun : Except Fault (List TagGroup) × Registry :=
  taggedRun [("/a", "client", "t"), ("/b", "t_client", "t")]

theorem names_clientRun : clientRun.1.map (List.map fun g => g.methods.map ClientMethod.name) =
    .ok [["client", "client_get"]] := by decide +kernel

theorem hidden_clientRun : ∃ built, clientRun.1 = .ok built ∧
    built.map (fun g => g.methods.map ClientMethod.name) = [["client", "client_get"]] ∧
    ∀ g ∈ built, ∀ (i : Nat) (m : ClientMethod), g.methods[i]? = some m →
      m.name ≠ constructorName ∧
      (m.name = clientName ↔
        (Settings.default.modelsModule ≠ .text clientName ∧
          clientName ∉ Settings.default.reservedWords) ∧
        m.ownName = clientName ∧ clientName ∉ (g.methods.take i).map ClientMethod.ownName) := by
  have hnames := names_clientRun
  cases hrun : clientRun with
  | mk x r =>
    rw [hrun] at hnames
    obtain ⟨built, rfl, hbuilt⟩ := except_map_ok_iff.mp hnames
    exact ⟨built, rfl, hbuilt, hidden_iff hrun⟩

/-- With the words reserved by default the first of these methods is hidden. -/
theorem not_always_reached : ¬ ∀ (document : Value) (settings : Settings) (built : List TagGroup)
    (t : Registry), settings.reservedWords = Settings.defaultReservedWords →
    outcome (groups document settings) {} = (.ok built, t) →
    ∀ g ∈ built, ∀ m ∈ g.methods, m.name ∉ [clientName, constructorName] := by
  intro h
  have hnames := names_clientRun
  cases hrun : clientRun with
  | mk x r =>
    rw [hrun] at hnames
    obtain ⟨built, rfl, hbuilt⟩ := except_map_ok_iff.mp hnames
    obtain ⟨g, rest, rfl, hg, -⟩ := List.map_eq_cons_iff.mp hbuilt
    obtain ⟨m, methods, hmethods, hm, -⟩ := List.map_eq_cons_iff.mp hg
    refine h _ _ _ _ rfl hrun g List.mem_cons_self m (hmethods ▸ List.mem_cons_self) ?_
    rw [hm]
    exact List.mem_cons_self

end Operation

end OpenApiClient

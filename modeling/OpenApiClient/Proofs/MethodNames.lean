import OpenApiClient.Operation.Group
import OpenApiClient.Proofs.ModelNames
import Mathlib.Data.List.Nodup

/-! # The names of the methods of a group

A repeated name gets the verb behind it, and a name that is repeated even so gets its count. Neither
looks at the names that are there already, so two methods may end with one name: this happens
exactly where a counted name is also the name of another method. -/
namespace OpenApiClient

theorem toList_numbered (base : String) (n : Nat) :
    (numbered base "_" (n + 1)).toList = base.toList ++ '_' :: (toString (n + 2)).toList := by
  simp [numbered]

theorem append_underscore_inj {base base' tail tail' : List Char} (htail : '_' ∉ tail)
    (htail' : '_' ∉ tail') (h : base ++ '_' :: tail = base' ++ '_' :: tail') :
    base = base' ∧ tail = tail' := by
  rcases List.append_eq_append_iff.mp h with ⟨rest, rfl, hrest⟩ | ⟨rest, rfl, hrest⟩
  · cases rest with
    | nil => simpa using hrest
    | cons c rest =>
      obtain ⟨-, rfl⟩ := List.cons.inj hrest
      exact absurd (List.mem_append_right _ List.mem_cons_self) htail
  · cases rest with
    | nil => simpa [eq_comm] using hrest
    | cons c rest =>
      obtain ⟨-, rfl⟩ := List.cons.inj hrest
      exact absurd (List.mem_append_right _ List.mem_cons_self) htail'

theorem underscore_not_mem_toString (n : Nat) : '_' ∉ (toString n).toList :=
  fun h => absurd (isDigit_of_mem_toString h) (by decide)

theorem numbered_succ_inj {base base' : String} {m n : Nat}
    (h : numbered base "_" (m + 1) = numbered base' "_" (n + 1)) : base = base' ∧ m = n := by
  have hchars := congrArg String.toList h
  rw [toList_numbered, toList_numbered] at hchars
  obtain ⟨hbase, -⟩ := append_underscore_inj (underscore_not_mem_toString _)
    (underscore_not_mem_toString _) hchars
  obtain rfl := String.toList_injective hbase
  exact ⟨rfl, numbered_injective h⟩

namespace HttpMethod

theorem key_letters (method : HttpMethod) :
    method.key.toList ≠ [] ∧ ∀ c ∈ method.key.toList, c ≠ '_' ∧ c.isDigit = false := by
  cases method <;> exact ⟨by decide, Text.forall_mem_of_all (by decide)⟩

end HttpMethod

namespace Operation

open Schema (Registry RegistryM logRecord)
open Schema.RegistryM

variable {seen names : List String} {methods : List (String × HttpMethod)} {name : String}

def withVerb (name : String) (method : HttpMethod) : String := name ++ "_" ++ method.key

private theorem withVerb_ne_numbered (name base : String) (method : HttpMethod) (n : Nat) :
    withVerb name method ≠ numbered base "_" (n + 1) := by
  intro h
  obtain ⟨hne, hletters⟩ := method.key_letters
  have hchars : name.toList ++ '_' :: method.key.toList =
      base.toList ++ '_' :: (toString (n + 2)).toList := by
    rw [← toList_numbered, ← h]
    simp [withVerb]
  obtain ⟨-, hkey⟩ := append_underscore_inj (fun hmem => (hletters _ hmem).1 rfl)
    (underscore_not_mem_toString _) hchars
  obtain ⟨c, hc⟩ := List.exists_mem_of_ne_nil _ hne
  have hdigit : c.isDigit := isDigit_of_mem_toString (hkey ▸ hc)
  rw [(hletters c hc).2] at hdigit
  cases hdigit

/-- A name that gets a verb is a repetition, and the others stay as they are. -/
theorem mem_appendVerbs (h : name ∈ appendVerbs seen methods) :
    name ∈ methods.map Prod.fst ∨ ∃ m ∈ methods, name = withVerb m.1 m.2 := by
  induction methods generalizing seen with
  | nil => simp [appendVerbs] at h
  | cons m rest ih =>
    obtain ⟨first, method⟩ := m
    have htail : ∀ {seen}, name ∈ appendVerbs seen rest →
        name ∈ ((first, method) :: rest).map Prod.fst ∨
          ∃ m ∈ (first, method) :: rest, name = withVerb m.1 m.2 := by
      intro seen h
      rcases ih h with h | ⟨m, hm, rfl⟩
      · exact .inl (List.mem_cons_of_mem _ h)
      · exact .inr ⟨m, List.mem_cons_of_mem _ hm, rfl⟩
    rw [appendVerbs] at h
    split at h
    · rcases List.mem_cons.mp h with rfl | h
      · exact .inr ⟨_, List.mem_cons_self, rfl⟩
      · exact htail h
    · rcases List.mem_cons.mp h with rfl | h
      · exact .inl List.mem_cons_self
      · exact htail h

theorem mem_appendVerbs_of_mem (h : name ∈ methods.map Prod.fst) (hnew : name ∉ seen) :
    name ∈ appendVerbs seen methods := by
  induction methods generalizing seen with
  | nil => simp at h
  | cons m rest ih =>
    obtain ⟨first, method⟩ := m
    rw [appendVerbs]
    split
    · rename_i hseen
      rcases List.mem_cons.mp h with rfl | h
      · exact absurd hseen hnew
      · exact List.mem_cons_of_mem _ (ih h hnew)
    · by_cases heq : name = first
      · exact heq ▸ List.mem_cons_self
      · have hrest := (List.mem_cons.mp h).resolve_left heq
        exact List.mem_cons_of_mem _ (ih hrest (by simp [heq, hnew]))

theorem numbered_mem_appendVerbs_iff {n : Nat} :
    numbered name "_" (n + 1) ∈ appendVerbs [] methods ↔
      numbered name "_" (n + 1) ∈ methods.map Prod.fst := by
  constructor
  · intro h
    rcases mem_appendVerbs h with h | ⟨m, -, h⟩
    · exact h
    · exact absurd h.symm (withVerb_ne_numbered _ _ _ _)
  · exact fun h => mem_appendVerbs_of_mem h (List.not_mem_nil)

def occurrences (seen : List String) : List String → List (String × Nat)
  | [] => []
  | name :: rest => (name, seen.count name) :: occurrences (name :: seen) rest

theorem appendCounts_eq (seen names : List String) :
    appendCounts seen names = (occurrences seen names).map fun o => numbered o.1 "_" o.2 := by
  induction names generalizing seen with
  | nil => rfl
  | cons name rest ih =>
    rw [appendCounts, occurrences, List.map_cons, ih]
    congr 1
    cases hcount : seen.count name <;> rfl

theorem mem_occurrences {n : Nat} : (name, n) ∈ occurrences seen names ↔
    seen.count name ≤ n ∧ n < seen.count name + names.count name := by
  induction names generalizing seen with
  | nil => simp [occurrences]
  | cons first rest ih =>
    rw [occurrences, List.mem_cons, ih, Prod.mk.injEq]
    by_cases h : name = first
    · subst h
      simp only [List.count_cons_self, true_and]
      omega
    · simp [h, Ne.symm h]

private theorem nodup_occurrences (seen names : List String) : (occurrences seen names).Nodup := by
  induction names generalizing seen with
  | nil => exact .nil
  | cons name rest ih =>
    refine List.nodup_cons.mpr ⟨fun h => ?_, ih _⟩
    have hle := (mem_occurrences.mp h).1
    rw [List.count_cons_self] at hle
    exact Nat.not_succ_le_self _ hle

/-- Names with counts are different exactly where no counted name is there already. -/
theorem nodup_appendCounts_iff (names : List String) : (appendCounts [] names).Nodup ↔
    ∀ name n, n + 1 < names.count name → numbered name "_" (n + 1) ∉ names := by
  have hmem : ∀ {name n}, (name, n) ∈ occurrences [] names ↔ n < names.count name := by
    simp [mem_occurrences]
  rw [appendCounts_eq, List.nodup_map_iff_inj_on (nodup_occurrences [] names)]
  constructor
  · -- The counted name would be given twice: as it is, and as the count of the other.
    intro hinj name n hcount htaken
    have hfirst := hmem.mpr (List.count_pos_iff.mpr htaken)
    exact absurd (hinj _ hfirst _ (hmem.mpr hcount) rfl) (by simp)
  · rintro h ⟨name, m⟩ hm ⟨name', n⟩ hn heq
    rw [hmem] at hm hn
    cases m with
    | zero =>
      have hname : name ∈ names := List.count_pos_iff.mp hm
      cases n with
      | zero => exact congrArg (·, 0) heq
      | succ n =>
        obtain rfl : name = numbered name' "_" (n + 1) := heq
        exact absurd hname (h _ _ hn)
    | succ m =>
      cases n with
      | zero =>
        have hname : name' ∈ names := List.count_pos_iff.mp hn
        obtain rfl : numbered name "_" (m + 1) = name' := heq
        exact absurd hname (h _ _ hm)
      | succ n =>
        obtain ⟨rfl, rfl⟩ := numbered_succ_inj heq
        rfl

theorem length_appendVerbs (seen : List String) (methods : List (String × HttpMethod)) :
    (appendVerbs seen methods).length = methods.length := by
  induction methods generalizing seen with
  | nil => rfl
  | cons m rest ih =>
    rw [appendVerbs]
    split <;> simp [ih]

theorem length_distinctNames (methods : List (String × HttpMethod)) :
    (distinctNames methods).length = methods.length := by
  have hoccurrences : ∀ seen names, (occurrences seen names).length = names.length := by
    intro seen names
    induction names generalizing seen with
    | nil => rfl
    | cons name rest ih => simp [occurrences, ih]
  rw [distinctNames, appendCounts_eq, List.length_map, hoccurrences, length_appendVerbs]

end Operation

def TagGroup.namedMethods (group : TagGroup) : List (String × HttpMethod) :=
  group.methods.map fun m => (m.name, m.method)

/-- The group with the names that its methods end with. -/
def TagGroup.renamed (group : TagGroup) : TagGroup :=
  { group with
    methods := (group.methods.zip (Operation.distinctNames group.namedMethods)).map
      fun (m, name) => { m with name := name } }

namespace Operation

open Schema (Registry RegistryM logRecord)
open Schema.RegistryM

/-- Going through a list for the log alone succeeds, and leaves a record of each item that has one. -/
theorem outcome_forIn_records {α : Type} (step : α → PUnit → RegistryM (ForInStep PUnit))
    (record : α → Option LogRecord)
    (h : ∀ a r, outcome (step a ⟨⟩) r =
      (.ok (.yield ⟨⟩), (record a).toList.foldl Registry.logged r))
    (items : List α) (r : Registry) : outcome (forIn items PUnit.unit step) r =
      (.ok ⟨⟩, (items.filterMap record).foldl Registry.logged r) := by
  induction items generalizing r with
  | nil => rfl
  | cons a rest ih =>
    rw [List.forIn_cons, outcome_bind_of_ok (h a r)]
    refine (ih _).trans ?_
    cases hrecord : record a with
    | none => rw [List.filterMap_cons_none hrecord]; rfl
    | some first => rw [List.filterMap_cons_some hrecord]; rfl

def renamingRecord? (groupName : String) (m : ClientMethod) (name : String) : Option LogRecord :=
  if name ≠ m.name then
    some ⟨.warning, .operations,
      groupName ++ ": renamed duplicate method " ++ m.name ++ " to " ++ name⟩
  else none

/-- Renaming succeeds, and leaves nothing but a record of each method that gets its verb. -/
theorem outcome_renameMethods (group : TagGroup) (r : Registry) :
    outcome (renameMethods group) r = (.ok group.renamed,
      ((group.methods.zip (appendVerbs [] group.namedMethods)).filterMap
        fun x => renamingRecord? group.name x.1 x.2).foldl Registry.logged r) := by
  have hstep : ∀ (x : ClientMethod × String) (s : Registry),
      outcome (do
        if x.2 ≠ x.1.name then
          logRecord .warning .operations
            (group.name ++ ": renamed duplicate method " ++ x.1.name ++ " to " ++ x.2)
        return ForInStep.yield PUnit.unit) s =
      (.ok (.yield ⟨⟩),
        (renamingRecord? group.name x.1 x.2).toList.foldl Registry.logged s) := by
    intro x s
    unfold renamingRecord?
    by_cases hx : x.2 ≠ x.1.name
    · simp only [if_pos hx]; rfl
    · simp only [if_neg hx]; rfl
  have hlogged := outcome_forIn_records (fun x _ => _) _ hstep
    (group.methods.zip (appendVerbs [] group.namedMethods)) r
  rw [renameMethods]
  exact (outcome_bind_of_ok hlogged _).trans rfl

theorem renameMethods_ok (group : TagGroup) (r : Registry) : ∃ records : List LogRecord,
    outcome (renameMethods group) r = (.ok group.renamed, records.foldl Registry.logged r) :=
  ⟨_, outcome_renameMethods group r⟩

theorem names_renamed (group : TagGroup) :
    group.renamed.methods.map ClientMethod.name = distinctNames group.namedMethods := by
  have hlength : (distinctNames group.namedMethods).length ≤ group.methods.length := by
    simp [length_distinctNames, TagGroup.namedMethods]
  rw [TagGroup.renamed, List.map_map]
  exact List.map_snd_zip hlength

/-- Whatever does not look at names is the same after renaming. -/
theorem map_renamed {β : Type} (group : TagGroup) (f : ClientMethod → β)
    (h : ∀ m name, f { m with name := name } = f m) :
    group.renamed.methods.map f = group.methods.map f := by
  have hlength : group.methods.length ≤ (distinctNames group.namedMethods).length := by
    simp [length_distinctNames, TagGroup.namedMethods]
  conv_rhs => rw [← List.map_fst_zip hlength]
  rw [TagGroup.renamed, List.map_map, List.map_map]
  exact List.map_congr_left fun x _ => h x.1 x.2

theorem map_fst_namedMethods (group : TagGroup) :
    group.namedMethods.map Prod.fst = group.methods.map ClientMethod.name := by
  rw [TagGroup.namedMethods, List.map_map]
  rfl

/-- Renaming succeeds and changes names alone. All methods of the group have different names then,
unless the group came with a name that is the counted form of another one, and that other name is
given out so often, as it is or with a verb behind it, that the count is reached. -/
theorem renamed_names_nodup_iff (group : TagGroup) (r : Registry) :
    (∃ records : List LogRecord,
      outcome (renameMethods group) r = (.ok group.renamed, records.foldl Registry.logged r)) ∧
    group.renamed.methods.map (fun m => { m with name := "" }) =
      group.methods.map (fun m => { m with name := "" }) ∧
    ((group.renamed.methods.map ClientMethod.name).Nodup ↔
      ∀ name n, n + 1 < (appendVerbs [] group.namedMethods).count name →
        numbered name "_" (n + 1) ∉ group.methods.map ClientMethod.name) := by
  refine ⟨renameMethods_ok group r, ?_, ?_⟩
  · have hlength : group.methods.length ≤ (distinctNames group.namedMethods).length := by
      simp [length_distinctNames, TagGroup.namedMethods]
    conv_rhs => rw [← List.map_fst_zip hlength]
    rw [TagGroup.renamed, List.map_map, List.map_map]
    rfl
  · rw [names_renamed, distinctNames, nodup_appendCounts_iff]
    simp only [numbered_mem_appendVerbs_iff, map_fst_namedMethods]

/-- Four operations, of which the last has the name that the third one gets in the end. -/
theorem not_nodup_distinctNames :
    ¬ ∀ methods : List (String × HttpMethod), (distinctNames methods).Nodup := by
  intro h
  have htwice : distinctNames [("a", .get), ("a", .get), ("a", .get), ("a_get_2", .get)] =
      ["a", "a_get", "a_get_2", "a_get_2"] := by decide
  exact absurd (htwice ▸ h _) (by decide)

end Operation

end OpenApiClient

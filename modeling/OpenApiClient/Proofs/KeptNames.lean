import OpenApiClient.Proofs.MethodNames

/-! # The methods of a group that keep their names

The verbs pass over the first method of a name, and no warning reports it. Yet the verb behind an
earlier name may give out the very name that it has, and the count that follows takes that for a
repetition. So a method keeps its name exactly where no method before it has that name, and none before
it is given that name with its verb. What is reported is the verbs alone. -/
namespace OpenApiClient

namespace Operation

variable {methods : List (String × HttpMethod)} {name : String} {i : Nat}

def NamedBefore (methods : List (String × HttpMethod)) (i : Nat) (name : String) : Prop :=
  name ∈ (methods.take i).map Prod.fst

instance (methods : List (String × HttpMethod)) (i : Nat) (name : String) :
    Decidable (NamedBefore methods i name) := inferInstanceAs (Decidable (_ ∈ _))

/-- A method before the place gets the name by the verb that is put behind its own. -/
def GivenBefore (methods : List (String × HttpMethod)) (i : Nat) (name : String) : Prop :=
  ∃ j < i, ∃ m, methods[j]? = some m ∧ NamedBefore methods j m.1 ∧ withVerb m.1 m.2 = name

/-! ## The two passes place by place -/

theorem getElem?_appendVerbs (seen : List String) (methods : List (String × HttpMethod)) (i : Nat) :
    (appendVerbs seen methods)[i]? = methods[i]?.map fun m =>
      if m.1 ∈ seen ∨ NamedBefore methods i m.1 then withVerb m.1 m.2 else m.1 := by
  induction methods generalizing seen i with
  | nil => rfl
  | cons first rest ih =>
    obtain ⟨name, method⟩ := first
    cases i with
    | zero =>
      rw [appendVerbs]
      split <;> simp [NamedBefore, withVerb, *]
    | succ i =>
      -- Whether the first name was seen before or not, it is seen from here on.
      have hrest : ∀ seen', (∀ n, n ∈ seen' ↔ n = name ∨ n ∈ seen) →
          (appendVerbs seen' rest)[i]? = rest[i]?.map fun m =>
            if m.1 ∈ seen ∨ NamedBefore ((name, method) :: rest) (i + 1) m.1 then withVerb m.1 m.2
            else m.1 := by
        intro seen' hseen'
        rw [ih]
        refine congrArg (Option.map · _) (funext fun m => if_congr ?_ rfl rfl)
        simp only [NamedBefore, List.take_succ_cons, List.map_cons, List.mem_cons, hseen']
        tauto
      rw [appendVerbs]
      split
      · rename_i hseen
        exact hrest seen fun n => by grind
      · exact hrest (name :: seen) fun n => List.mem_cons

theorem getElem?_appendCounts (seen names : List String) (i : Nat) :
    (appendCounts seen names)[i]? = names[i]?.map fun name =>
      numbered name "_" (seen.count name + (names.take i).count name) := by
  rw [appendCounts_eq]
  induction names generalizing seen i with
  | nil => rfl
  | cons first rest ih =>
    rw [occurrences, List.map_cons]
    cases i with
    | zero => simp
    | succ i =>
      rw [List.getElem?_cons_succ, ih, List.getElem?_cons_succ]
      refine congrArg (Option.map · _) (funext fun name => ?_)
      rw [List.take_succ_cons, List.count_cons, List.count_cons]
      congr 1
      omega

/-- A name that no method before has is among the names before it only where a verb gave it out. -/
theorem mem_take_appendVerbs_iff (hnew : ¬ NamedBefore methods i name) :
    name ∈ (appendVerbs [] methods).take i ↔ GivenBefore methods i name := by
  have hplace : ∀ {j m}, methods[j]? = some m → (appendVerbs [] methods)[j]? =
      some (if NamedBefore methods j m.1 then withVerb m.1 m.2 else m.1) := by
    intro j m hm
    simp [getElem?_appendVerbs, hm]
  rw [List.mem_iff_getElem?]
  constructor
  · rintro ⟨j, hj⟩
    have hlt : j < i := by
      have hlength := (List.getElem?_eq_some_iff.mp hj).1
      rw [List.length_take] at hlength
      omega
    rw [List.getElem?_take_of_lt hlt] at hj
    have hinside := (List.getElem?_eq_some_iff.mp hj).1
    rw [length_appendVerbs] at hinside
    have hm := List.getElem?_eq_getElem hinside
    rw [hplace hm] at hj
    split at hj
    · exact ⟨j, hlt, _, hm, ‹_›, Option.some.inj hj⟩
    · refine absurd ?_ hnew
      rw [NamedBefore, ← Option.some.inj hj]
      exact List.mem_map_of_mem (List.mem_take_iff_getElem.mpr ⟨j, by omega, rfl⟩)
  · rintro ⟨j, hlt, m, hm, hnamed, rfl⟩
    refine ⟨j, ?_⟩
    rw [List.getElem?_take_of_lt hlt, hplace hm, if_pos hnamed]

theorem length_lt_numbered (base : String) (n : Nat) :
    base.toList.length < (numbered base "_" (n + 1)).toList.length := by
  rw [toList_numbered, List.length_append, List.length_cons]
  omega

theorem numbered_eq_self_iff {n : Nat} : numbered name "_" n = name ↔ n = 0 := by
  cases n with
  | zero => exact iff_of_true rfl rfl
  | succ n =>
    refine iff_of_false (fun h => ?_) (Nat.succ_ne_zero n)
    have hlength := length_lt_numbered name n
    rw [h] at hlength
    exact Nat.lt_irrefl _ hlength

theorem numbered_withVerb_ne (name : String) (method : HttpMethod) (n : Nat) :
    numbered (withVerb name method) "_" n ≠ name := by
  have hverb : name.toList.length < (withVerb name method).toList.length := by
    simp [withVerb]
  intro h
  cases n with
  | zero => exact absurd (congrArg (·.toList.length) h) (Nat.ne_of_gt hverb)
  | succ n =>
    exact absurd (congrArg (·.toList.length) h)
      (Nat.ne_of_gt (Nat.lt_trans hverb (length_lt_numbered _ n)))

private theorem withVerb_ne (name : String) (method : HttpMethod) : withVerb name method ≠ name :=
  numbered_withVerb_ne name method 0

/-- The name that a method ends with is its own exactly where none before it has that name, and none
before it gets that name by its verb. -/
theorem getElem?_distinctNames_eq_iff {method : HttpMethod} (h : methods[i]? = some (name, method)) :
    (distinctNames methods)[i]? = some name ↔
      ¬ NamedBefore methods i name ∧ ¬ GivenBefore methods i name := by
  rw [distinctNames, getElem?_appendCounts, getElem?_appendVerbs, h]
  simp only [Option.map_some, List.not_mem_nil, false_or, List.count_nil, Nat.zero_add,
    Option.some.injEq]
  by_cases hnamed : NamedBefore methods i name
  · rw [if_pos hnamed]
    exact iff_of_false (numbered_withVerb_ne _ _ _) fun hkept => hkept.1 hnamed
  · rw [if_neg hnamed, numbered_eq_self_iff, List.count_eq_zero, mem_take_appendVerbs_iff hnamed]
    exact (and_iff_right hnamed).symm

end Operation

namespace TagGroup

open Operation Schema Schema.RegistryM

variable {group : TagGroup} {m : ClientMethod} {i : Nat}

/-- What is reported of a group: every method whose name one before it has, with the name that its
verb makes. -/
def verbRecords (group : TagGroup) : List LogRecord :=
  group.methods.zipIdx.filterMap fun (m, i) =>
    if NamedBefore group.namedMethods i m.name then
      some ⟨.warning, .operations, group.name ++ ": renamed duplicate method " ++ m.name ++ " to " ++
        withVerb m.name m.method⟩
    else none

/-- Every name that one method of the group alone comes with stays. -/
def KeepsUniqueNames (group : TagGroup) : Prop :=
  ∀ (i : Nat) (m m' : ClientMethod), group.methods[i]? = some m → group.renamed.methods[i]? = some m' →
    (group.methods.map ClientMethod.name).count m.name = 1 → m'.name = m.name

/-- Every method of the group that does not keep its name is among those reported. -/
def ReportsRenamings (group : TagGroup) : Prop :=
  ∀ (i : Nat) (m m' : ClientMethod), group.methods[i]? = some m → group.renamed.methods[i]? = some m' →
    m'.name ≠ m.name → NamedBefore group.namedMethods i m.name

theorem getElem?_namedMethods (group : TagGroup) (i : Nat) :
    group.namedMethods[i]? = group.methods[i]?.map fun m => (m.name, m.method) :=
  List.getElem?_map

private theorem getElem?_distinctNames (h : group.renamed.methods[i]? = some m) :
    (distinctNames group.namedMethods)[i]? = some m.name := by
  rw [← names_renamed, List.getElem?_map, h]
  rfl

private theorem zip_appendVerbs (group : TagGroup) :
    group.methods.zip (appendVerbs [] group.namedMethods) = group.methods.zipIdx.map fun (m, i) =>
      (m, if NamedBefore group.namedMethods i m.name then withVerb m.name m.method else m.name) := by
  refine List.ext_getElem? fun i => ?_
  rw [List.getElem?_map, List.getElem?_zipIdx, List.zip, List.getElem?_zipWith,
    getElem?_appendVerbs, getElem?_namedMethods]
  cases group.methods[i]? with
  | none => rfl
  | some m => simp

private theorem verbRecords_eq (group : TagGroup) :
    (group.methods.zip (appendVerbs [] group.namedMethods)).filterMap
      (fun x => renamingRecord? group.name x.1 x.2) = group.verbRecords := by
  rw [zip_appendVerbs, List.filterMap_map]
  refine congrArg (List.filterMap · _) (funext fun (m, i) => ?_)
  dsimp only [Function.comp_apply, renamingRecord?]
  by_cases hnamed : NamedBefore group.namedMethods i m.name
  · rw [if_pos hnamed, if_pos (withVerb_ne m.name m.method), if_pos hnamed]
  · rw [if_neg hnamed, if_neg (not_not_intro rfl), if_neg hnamed]

private theorem exists_renamed (h : group.methods[i]? = some m) :
    ∃ m', group.renamed.methods[i]? = some m' := by
  have hlength : group.renamed.methods.length = group.methods.length := by
    rw [← List.length_map ClientMethod.name, names_renamed, length_distinctNames, namedMethods,
      List.length_map]
  refine ⟨_, List.getElem?_eq_getElem ?_⟩
  rw [hlength]
  exact (List.getElem?_eq_some_iff.mp h).1

private theorem not_namedBefore_of_count (h : group.methods[i]? = some m)
    (hcount : (group.methods.map ClientMethod.name).count m.name = 1) :
    ¬ NamedBefore group.namedMethods i m.name := by
  intro hnamed
  rw [NamedBefore, List.map_take, map_fst_namedMethods] at hnamed
  have hbefore := List.count_pos_iff.mpr hnamed
  have hhere : 0 < ((group.methods.map ClientMethod.name).drop i).count m.name := by
    refine List.count_pos_iff.mpr (List.mem_iff_getElem?.mpr ⟨0, ?_⟩)
    rw [List.getElem?_drop, Nat.add_zero, List.getElem?_map, h]
    rfl
  rw [← List.take_append_drop i (group.methods.map ClientMethod.name), List.count_append] at hcount
  omega

/-- A method keeps its name exactly where no method before it has that name and no verb before it gives it
out. -/
theorem name_kept_iff {m' : ClientMethod} (h : group.methods[i]? = some m)
    (h' : group.renamed.methods[i]? = some m') :
    m'.name = m.name ↔ ¬ NamedBefore group.namedMethods i m.name ∧
      ¬ GivenBefore group.namedMethods i m.name := by
  have hplace : group.namedMethods[i]? = some (m.name, m.method) := by
    rw [getElem?_namedMethods, h]
    rfl
  rw [← getElem?_distinctNames_eq_iff hplace, getElem?_distinctNames h', Option.some.injEq]

/-- Renaming reports the methods whose name one before them has, and no others. A method keeps its name
exactly where none before it has that name, and none before it gets it by its verb. So unique names
are kept unless a verb gives one of them out, and a renaming goes without a report exactly where a
verb gives out a name that no method before has. -/
theorem unique_names_kept_iff (group : TagGroup) :
    (∀ r, outcome (renameMethods group) r =
      (.ok group.renamed, group.verbRecords.foldl Registry.logged r)) ∧
    (∀ (i : Nat) (m m' : ClientMethod), group.methods[i]? = some m →
      group.renamed.methods[i]? = some m' →
      (m'.name = m.name ↔ ¬ NamedBefore group.namedMethods i m.name ∧
        ¬ GivenBefore group.namedMethods i m.name)) ∧
    (group.KeepsUniqueNames ↔ ∀ (i : Nat) (m : ClientMethod), group.methods[i]? = some m →
      (group.methods.map ClientMethod.name).count m.name = 1 →
      ¬ GivenBefore group.namedMethods i m.name) ∧
    (group.ReportsRenamings ↔ ∀ (i : Nat) (m : ClientMethod), group.methods[i]? = some m →
      GivenBefore group.namedMethods i m.name → NamedBefore group.namedMethods i m.name) := by
  refine ⟨fun r => ?_, fun i m m' => name_kept_iff, ⟨fun hkeeps i m h hcount => ?_, ?_⟩,
    ⟨fun hreports i m h hgiven => ?_, ?_⟩⟩
  · rw [outcome_renameMethods, verbRecords_eq]
  · obtain ⟨m', h'⟩ := exists_renamed h
    exact ((name_kept_iff h h').mp (hkeeps i m m' h h' hcount)).2
  · exact fun hfree i m m' h h' hcount =>
      (name_kept_iff h h').mpr ⟨not_namedBefore_of_count h hcount, hfree i m h hcount⟩
  · obtain ⟨m', h'⟩ := exists_renamed h
    exact hreports i m m' h h' fun hkept => ((name_kept_iff h h').mp hkept).2 hgiven
  · intro hgiven i m m' h h' hrenamed
    by_contra hnamed
    exact hrenamed ((name_kept_iff h h').mpr ⟨hnamed, fun hg => hnamed (hgiven i m h hg)⟩)

def bareMethod (name : String) : ClientMethod :=
  { operation := name, method := .get, path := "/", tag := "t", name, parameters := []
    body := none, response := none, responseText := "None", docs := {}, urlCode := ""
    call := { method := .text "get" } }

def verbGroup : TagGroup :=
  { name := "t", className := "T", methods := ["a", "a", "a_get"].map bareMethod }

theorem unique_names_kept_verbGroup : ∃ m m',
    verbGroup.methods[2]? = some m ∧ verbGroup.renamed.methods[2]? = some m' ∧
    m.name = "a_get" ∧ m'.name = "a_get_2" ∧
    (m'.name = m.name ↔ ¬ NamedBefore verbGroup.namedMethods 2 m.name ∧
      ¬ GivenBefore verbGroup.namedMethods 2 m.name) := by
  obtain ⟨-, hkept, -⟩ := unique_names_kept_iff verbGroup
  exact ⟨_, _, rfl, rfl, rfl, by decide, hkept 2 _ _ rfl rfl⟩

/-- The third method has a name that no other has, loses it, and is not reported. -/
theorem exists_unique_name_lost : ∃ group : TagGroup,
    ¬ group.KeepsUniqueNames ∧ ¬ group.ReportsRenamings ∧
    group.verbRecords =
      [⟨.warning, .operations, "t: renamed duplicate method a to a_get"⟩] := by
  have hlost : (verbGroup.renamed.methods.map ClientMethod.name)[2]? = some "a_get_2" := by
    decide
  rw [List.getElem?_map, Option.map_eq_some_iff] at hlost
  obtain ⟨m', h', hname⟩ := hlost
  refine ⟨verbGroup, fun hkeeps => ?_, fun hreports => ?_, by decide⟩
  · have hkept := hkeeps 2 _ m' rfl h' (by decide)
    exact absurd (hname.symm.trans hkept) (by decide)
  · have hnamed := hreports 2 _ m' rfl h' (hname ▸ by decide)
    exact absurd hnamed (by decide)

end TagGroup

end OpenApiClient

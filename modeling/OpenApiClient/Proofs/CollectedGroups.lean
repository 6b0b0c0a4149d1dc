import OpenApiClient.Proofs.BuiltMethods
import OpenApiClient.Proofs.MethodNames
import OpenApiClient.Proofs.TableKeys

/-! # How the groups of a document come about

The operations are built one after the other, and each method goes to the end of the group of its
module. So the groups hold what is built of the operations, all of it and in its order, until in the
end the methods are renamed and the groups sorted. -/
namespace OpenApiClient

def ListedOperation.endpoint (o : ListedOperation) : Scalar × HttpMethod := (o.path, o.method)

def ClientMethod.endpoint (m : ClientMethod) : Scalar × HttpMethod := (.text m.path, m.method)

namespace Operation

open Schema Schema.RegistryM

variable {document : Value} {shared : Members} {settings : Settings} {o : ListedOperation}
  {m : ClientMethod} {r t : Registry} {listed : List ListedOperation} {gs built : List TagGroup}
  {name : String}

/-- The module that an operation belongs to: the identifier of its tag. -/
def moduleName? (settings : Settings) (o : ListedOperation) : Option String :=
  Except.toOption do
    let operation ← idOf o.declaration o.method o.path
    let tag ← tagOf o.declaration operation
    return Naming.identifier (← settings.reserved) tag

/-- Whether a method is what is built of an operation, whatever was built before. -/
def IsBuilt (document : Value) (shared : Members) (settings : Settings) (o : ListedOperation)
    (m : ClientMethod) : Prop :=
  ∃ r t, outcome (build document shared settings o) r = (.ok m, t)

theorem IsBuilt.builds (h : IsBuilt document shared settings o m) : Builds settings o m := by
  obtain ⟨_, _, h⟩ := h
  exact (build_ok h).1

theorem Builds.endpoint (h : Builds settings o m) : m.endpoint = o.endpoint := by
  rw [ClientMethod.endpoint, ListedOperation.endpoint, h.path, h.method]

theorem Builds.moduleName? (h : Builds settings o m) {reserved : List String}
    (hreserved : settings.reserved = .ok reserved) :
    moduleName? settings o = some (Naming.identifier reserved m.tag) := by
  rw [Operation.moduleName?, h.operation]
  dsimp only [bind, Except.bind]
  rw [h.tag, hreserved]
  rfl

inductive Collects (document : Value) (shared : Members) (settings : Settings) :
    List ListedOperation → List TagGroup → Prop
  | nil : Collects document shared settings [] []
  | snoc {listed : List ListedOperation} {gs : List TagGroup} {o : ListedOperation}
      {m : ClientMethod} {name : String} :
      Collects document shared settings listed gs → IsBuilt document shared settings o m →
      moduleName? settings o = some name →
      Collects document shared settings (listed ++ [o]) (addToGroup gs name m)

theorem Collects.addOperation (h : Collects document shared settings listed gs)
    (hrun : outcome (addOperation document shared settings gs o) r = (.ok built, t)) :
    Collects document shared settings (listed ++ [o]) built := by
  rw [Operation.addOperation] at hrun
  obtain ⟨m, s, hm, hrun⟩ := bind_ok_iff.mp hrun
  obtain ⟨reserved, hreserved, hrun⟩ := lift_bind_ok_iff.mp hrun
  obtain ⟨_, _, -, hrun⟩ := bind_ok_iff.mp hrun
  obtain ⟨rfl, -⟩ := pure_ok_iff.mp hrun
  have hbuilt : IsBuilt document shared settings o m := ⟨r, s, buildLocated_ok hm⟩
  exact h.snoc hbuilt (hbuilt.builds.moduleName? hreserved)

private theorem Collects.foldlM {entries : List (Except Fault ListedOperation)}
    (h : Collects document shared settings listed gs)
    (hrun : outcome (entries.foldlM (fun groups entry => do
      let listed : ListedOperation ← (entry : Except Fault ListedOperation)
      Operation.addOperation document shared settings groups listed) gs) r = (.ok built, t)) :
    ∃ rest, entries = rest.map .ok ∧ Collects document shared settings (listed ++ rest) built := by
  induction entries generalizing listed gs r with
  | nil =>
    obtain ⟨rfl, -⟩ := pure_ok_iff.mp hrun
    exact ⟨[], rfl, by simpa using h⟩
  | cons entry entries ih =>
    rw [List.foldlM_cons] at hrun
    obtain ⟨next, _, hfirst, hrest⟩ := bind_ok_iff.mp hrun
    obtain ⟨o, rfl, ho⟩ := lift_bind_ok_iff.mp hfirst
    obtain ⟨rest, rfl, hcollects⟩ := ih (h.addOperation ho) hrest
    exact ⟨o :: rest, rfl, by simpa using hcollects⟩

private theorem mapM_renameMethods (h : outcome (gs.mapM renameMethods) r = (.ok built, t)) :
    built = gs.map TagGroup.renamed := by
  induction gs generalizing r built with
  | nil =>
    simp only [mapM_nil_outcome, Prod.mk.injEq, Except.ok.injEq] at h
    exact h.1.symm
  | cons g gs ih =>
    obtain ⟨g', s, rest, hg, hrest, rfl⟩ := mapM_cons_ok_iff.mp h
    obtain ⟨records, hrecords⟩ := renameMethods_ok g r
    obtain ⟨hrenamed, -⟩ := Prod.mk.inj (hrecords.symm.trans hg)
    rw [List.map_cons, ih hrest, Except.ok.inj hrenamed]

def inOrder (gs : List TagGroup) : List TagGroup := gs.mergeSort fun a b => decide (a.name ≤ b.name)

/-- The groups of a document are collected from all its operations, none of which has a fault; then
the methods are renamed and the groups sorted. -/
theorem groups_ok (h : outcome (groups document settings) r = (.ok built, t)) :
    ∃ shared listed gs, sharedParameters document = .ok shared ∧
      listing document = listed.map .ok ∧ Collects document shared settings listed gs ∧
      built = inOrder (gs.map TagGroup.renamed) := by
  rw [groups] at h
  obtain ⟨shared, hshared, h⟩ := lift_bind_ok_iff.mp h
  obtain ⟨gs, _, hgs, h⟩ := bind_ok_iff.mp h
  obtain ⟨renamed, _, hrenamed, h⟩ := bind_ok_iff.mp h
  obtain ⟨_, _, -, h⟩ := bind_ok_iff.mp h
  obtain ⟨rfl, -⟩ := pure_ok_iff.mp h
  obtain ⟨listed, hlisted, hcollects⟩ := Collects.nil.foldlM hgs
  refine ⟨shared, listed, gs, hshared, hlisted, hcollects, ?_⟩
  rw [inOrder, ← mapM_renameMethods hrenamed]

/-- Adding a method goes to the one group of its module, or makes that group. -/
theorem addToGroup_cases (hnodup : (gs.map TagGroup.name).Nodup) (name : String)
    (m : ClientMethod) :
    (∃ before g after, gs = before ++ g :: after ∧ g.name = name ∧
      (∀ other ∈ before ++ after, other.name ≠ name) ∧
      addToGroup gs name m = before ++ { g with methods := g.methods ++ [m] } :: after) ∨
    (∀ g ∈ gs, g.name ≠ name) ∧
      addToGroup gs name m = gs ++ [⟨name, Naming.className m.tag, [m]⟩] := by
  by_cases hany : gs.any (·.name == name)
  · obtain ⟨g, hg, hname⟩ := List.any_eq_true.mp hany
    obtain rfl := beq_iff_eq.mp hname
    obtain ⟨before, after, rfl⟩ := List.append_of_mem hg
    have hothers : ∀ other ∈ before ++ after, other.name ≠ g.name := by
      have hperm : (before ++ g :: after).Perm (g :: (before ++ after)) := List.perm_middle
      have hmem := (List.nodup_cons.mp ((hperm.map TagGroup.name).nodup_iff.mp hnodup)).1
      exact fun other hother heq => hmem (List.mem_map.mpr ⟨other, hother, heq⟩)
    have hkept : ∀ {rest : List TagGroup}, rest ⊆ before ++ after →
        rest.map (fun g' => if g'.name = g.name then { g' with methods := g'.methods ++ [m] }
          else g') = rest := by
      intro rest hrest
      conv_rhs => rw [← List.map_id rest]
      exact List.map_congr_left fun other hother => if_neg (hothers other (hrest hother))
    refine .inl ⟨before, g, after, rfl, rfl, hothers, ?_⟩
    rw [addToGroup, if_pos hany, List.map_append, List.map_cons, if_pos rfl,
      hkept (List.subset_append_left _ _), hkept (List.subset_append_right _ _)]
  · refine .inr ⟨fun g hg hname => hany ?_, by rw [addToGroup, if_neg hany]⟩
    exact List.any_eq_true.mpr ⟨g, hg, beq_iff_eq.mpr hname⟩

structure Collected (document : Value) (shared : Members) (settings : Settings)
    (listed : List ListedOperation) (gs : List TagGroup) : Prop where
  nodup : (gs.map TagGroup.name).Nodup
  modules : ∀ o ∈ listed, ∃ g ∈ gs, moduleName? settings o = some g.name
  methods : ∀ g ∈ gs, List.Forall₂ (IsBuilt document shared settings)
    (listed.filter (moduleName? settings · = some g.name)) g.methods
  className : ∀ g ∈ gs, ∃ m ∈ g.methods.head?, g.className = Naming.className m.tag
  endpoints : ((gs.flatMap TagGroup.methods).map ClientMethod.endpoint).Perm
    (listed.map ListedOperation.endpoint)

private theorem mem_middle {α : Type} {a b : α} {before after : List α} :
    a ∈ before ++ b :: after ↔ a = b ∨ a ∈ before ++ after :=
  List.perm_middle.mem_iff.trans List.mem_cons

theorem filter_moduleName_append (hname : moduleName? settings o = some name)
    (listed : List ListedOperation) (g : TagGroup) :
    (listed ++ [o]).filter (moduleName? settings · = some g.name) =
      listed.filter (moduleName? settings · = some g.name) ++ if g.name = name then [o] else [] := by
  rw [List.filter_append]
  congr 1
  by_cases hg : g.name = name
  · simp [hg, hname]
  · simp [hg, hname, Ne.symm hg]

/-- A method more in a group that is there. -/
theorem Collected.extended {before after : List TagGroup} {g : TagGroup}
    (h : Collected document shared settings listed (before ++ g :: after))
    (hothers : ∀ other ∈ before ++ after, other.name ≠ g.name)
    (hm : IsBuilt document shared settings o m) (hname : moduleName? settings o = some g.name) :
    Collected document shared settings (listed ++ [o])
      (before ++ { g with methods := g.methods ++ [m] } :: after) where
  nodup := by simpa using h.nodup
  modules := by
    intro o' ho'
    rcases List.mem_append.mp ho' with ho' | ho'
    · obtain ⟨g', hg', hmodule⟩ := h.modules o' ho'
      rcases mem_middle.mp hg' with rfl | hg'
      · exact ⟨_, mem_middle.mpr (.inl rfl), hmodule⟩
      · exact ⟨g', mem_middle.mpr (.inr hg'), hmodule⟩
    · rw [List.mem_singleton.mp ho']
      exact ⟨_, mem_middle.mpr (.inl rfl), hname⟩
  methods := by
    intro g' hg'
    rw [filter_moduleName_append hname]
    rcases mem_middle.mp hg' with rfl | hg'
    · rw [if_pos rfl]
      exact List.rel_append (h.methods g (by simp)) (.cons hm .nil)
    · rw [if_neg (hothers g' hg'), List.append_nil]
      exact h.methods g' (mem_middle.mpr (.inr hg'))
  className := by
    intro g' hg'
    rcases mem_middle.mp hg' with rfl | hg'
    · obtain ⟨first, hfirst, hclass⟩ := h.className g (by simp)
      exact ⟨first, by simp [List.head?_append, Option.mem_def.mp hfirst], hclass⟩
    · exact h.className g' (mem_middle.mpr (.inr hg'))
  endpoints := by
    have hold := List.perm_iff_count.mp h.endpoints
    refine List.perm_iff_count.mpr fun e => ?_
    have he := hold e
    simp only [List.flatMap_append, List.flatMap_cons, List.map_append, List.count_append,
      List.map_cons, List.map_nil, hm.builds.endpoint] at he ⊢
    omega

/-- A method in a group of its own. -/
theorem Collected.opened (h : Collected document shared settings listed gs)
    (hnew : ∀ g ∈ gs, g.name ≠ name) (hm : IsBuilt document shared settings o m)
    (hname : moduleName? settings o = some name) :
    Collected document shared settings (listed ++ [o])
      (gs ++ [⟨name, Naming.className m.tag, [m]⟩]) where
  nodup := by
    have hname : name ∉ gs.map TagGroup.name := by
      intro hmem
      obtain ⟨g, hg, heq⟩ := List.mem_map.mp hmem
      exact hnew g hg heq
    rw [List.map_append, List.map_singleton, ← List.concat_eq_append]
    exact h.nodup.concat hname
  modules := by
    intro o' ho'
    rcases List.mem_append.mp ho' with ho' | ho'
    · obtain ⟨g, hg, hmodule⟩ := h.modules o' ho'
      exact ⟨g, List.mem_append_left _ hg, hmodule⟩
    · rw [List.mem_singleton.mp ho']
      exact ⟨_, List.mem_append_right _ List.mem_cons_self, hname⟩
  methods := by
    intro g hg
    rw [filter_moduleName_append hname]
    rcases List.mem_append.mp hg with hg | hg
    · rw [if_neg (hnew g hg), List.append_nil]
      exact h.methods g hg
    · -- No operation before was of this module, or else its group would be there.
      rw [List.mem_singleton.mp hg, if_pos rfl]
      have hnone : listed.filter (moduleName? settings · = some name) = [] := by
        refine List.filter_eq_nil_iff.mpr fun o' ho' hmodule => ?_
        obtain ⟨g', hg', hg'name⟩ := h.modules o' ho'
        rw [decide_eq_true_eq, hg'name, Option.some.injEq] at hmodule
        exact hnew g' hg' hmodule
      rw [hnone]
      exact .cons hm .nil
  className := by
    intro g hg
    rcases List.mem_append.mp hg with hg | hg
    · exact h.className g hg
    · rw [List.mem_singleton.mp hg]
      exact ⟨m, rfl, rfl⟩
  endpoints := by
    rw [List.flatMap_append, List.map_append, List.map_append]
    refine h.endpoints.append ?_
    simp [hm.builds.endpoint]

theorem Collects.collected (h : Collects document shared settings listed gs) :
    Collected document shared settings listed gs := by
  induction h with
  | nil => exact ⟨.nil, by simp, by simp, by simp, .refl _⟩
  | @snoc listed gs o m name _ hm hname ih =>
    rcases addToGroup_cases ih.nodup name m with
      ⟨before, g, after, rfl, rfl, hothers, hadded⟩ | ⟨hnew, hadded⟩
    · exact hadded ▸ ih.extended hothers hm hname
    · exact hadded ▸ ih.opened hnew hm hname

/-! ## The operations of a document -/

private theorem endpoints_sublist {path : Scalar} {methods : List HttpMethod}
    {entry : HttpMethod → Option (Except Fault ListedOperation)}
    (hentry : ∀ method o, entry method = some (.ok o) → o.endpoint = (path, method))
    (h : methods.filterMap entry = listed.map .ok) :
    (listed.map ListedOperation.endpoint).Sublist (methods.map (path, ·)) := by
  induction methods generalizing listed with
  | nil =>
    rw [List.filterMap_nil, eq_comm, List.map_eq_nil_iff] at h
    exact h ▸ .slnil
  | cons method rest ih =>
    cases hmethod : entry method with
    | none =>
      rw [List.filterMap_cons_none hmethod] at h
      exact (ih h).cons _
    | some x =>
      rw [List.filterMap_cons_some hmethod] at h
      obtain ⟨o, listed, rfl, rfl, hrest⟩ := List.map_eq_cons_iff.mp h.symm
      rw [List.map_cons, hentry method o hmethod]
      exact (ih hrest.symm).cons_cons _

theorem ofItem_endpoints {path : Scalar} {item : Value} (h : ofItem path item = listed.map .ok) :
    (listed.map ListedOperation.endpoint).Sublist (HttpMethod.all.map (path, ·)) := by
  unfold ofItem at h
  split at h
  · refine endpoints_sublist (fun method o ho => ?_) h
    split at ho
    · cases ho
    · obtain ⟨d, -, rfl⟩ := except_map_ok_iff.mp (Option.some.inj ho)
      rfl
  all_goals
    obtain ⟨_, _, -, hfault, -⟩ := List.map_eq_cons_iff.mp h.symm
    cases hfault

theorem map_listed {β : Type} (h : listing document = listed.map .ok) (f : ListedOperation → β) :
    listed.map f = (listing document).filterMap fun entry => entry.toOption.map f := by
  rw [h, List.filterMap_map]
  exact List.filterMap_eq_map.symm ▸ rfl

/-- No two operations of a document are reached in the same way. -/
theorem nodup_endpoints {ms : Members} (h : listing document = listed.map .ok)
    (hpaths : paths document = .ok ms) (hnodup : (ms.map Prod.fst).Nodup) :
    (listed.map ListedOperation.endpoint).Nodup := by
  rw [listing, hpaths] at h
  dsimp only at h
  clear hpaths
  suffices (listed.map ListedOperation.endpoint).Nodup ∧ ∀ o ∈ listed, o.path ∈ ms.map Prod.fst
    from this.1
  induction ms generalizing listed with
  | nil =>
    rw [List.flatMap_nil, eq_comm, List.map_eq_nil_iff] at h
    simp [h]
  | cons entry rest ih =>
    obtain ⟨path, item⟩ := entry
    rw [List.flatMap_cons, eq_comm, List.map_eq_append_iff] at h
    obtain ⟨here, others, rfl, hhere, hothers⟩ := h
    obtain ⟨hnew, hrest⟩ := List.nodup_cons.mp hnodup
    obtain ⟨hdistinct, hkeys⟩ := ih hothers.symm hrest
    have hsublist : (here.map ListedOperation.endpoint).Sublist
        (HttpMethod.all.map (path, ·)) := by
      split at hhere
      · obtain ⟨_, _, -, hfault, -⟩ := List.map_eq_cons_iff.mp hhere
        cases hfault
      · exact ofItem_endpoints hhere.symm
    have hpath : ∀ o ∈ here, o.path = path := by
      intro o ho
      obtain ⟨method, -, heq⟩ := List.mem_map.mp (hsublist.subset (List.mem_map_of_mem ho))
      exact (congrArg Prod.fst heq).symm
    have hmethods : (HttpMethod.all.map (path, ·)).Nodup := by
      refine List.Nodup.map (fun _ _ heq => congrArg Prod.snd heq) ?_
      decide
    refine ⟨?_, fun o ho => ?_⟩
    · rw [List.map_append]
      refine (hsublist.nodup hmethods).append hdistinct fun e he he' => ?_
      obtain ⟨o, ho, rfl⟩ := List.mem_map.mp he
      obtain ⟨o', ho', heq⟩ := List.mem_map.mp he'
      have hsame : o'.path = path := (congrArg Prod.fst heq).trans (hpath o ho)
      exact hnew (hsame ▸ hkeys o' ho')
    · rcases List.mem_append.mp ho with ho | ho
      · exact hpath o ho ▸ List.mem_cons_self
      · exact List.mem_cons_of_mem _ (hkeys o ho)

/-! ## The groups in the end -/

theorem inOrder_perm (gs : List TagGroup) : (inOrder gs).Perm gs := List.mergeSort_perm _ _

/-- Groups of different modules come in the strict order of these. -/
theorem inOrder_strict (h : (gs.map TagGroup.name).Nodup) :
    ((inOrder gs).map TagGroup.name).Pairwise (· < ·) := strict_mergeSort_key h

/-- Renaming leaves methods that are the same but for their names. -/
theorem forall₂_renamed {R : ListedOperation → ClientMethod → Prop} {g : TagGroup}
    (h : List.Forall₂ R listed g.methods) :
    List.Forall₂ (fun o m => ∃ name, R o { m with name := name }) listed g.renamed.methods := by
  have hlength : (distinctNames g.namedMethods).length = g.methods.length := by
    rw [length_distinctNames, TagGroup.namedMethods, List.length_map]
  rw [TagGroup.renamed]
  dsimp only
  generalize distinctNames g.namedMethods = names at hlength ⊢
  generalize g.methods = methods at h hlength ⊢
  induction h generalizing names with
  | nil => exact .nil
  | cons hm _ ih =>
    obtain ⟨name, names, rfl⟩ := List.exists_cons_of_length_eq_add_one hlength
    exact .cons ⟨_, hm⟩ (ih names (Nat.succ.inj hlength))

private theorem endpoints_renamed (g : TagGroup) :
    g.renamed.methods.map ClientMethod.endpoint = g.methods.map ClientMethod.endpoint :=
  map_renamed g _ fun _ _ => rfl

/-- When the groups of a document are built, none of its operations has a fault, and the modules of
the groups are strictly increasing. Every operation has a group: that of the identifier of its tag.
The methods of a group are those of its operations in the order of the document, each of them what is
built of its operation but for the name. All groups together reach what the operations do, and no
operation is reached twice when the paths of the document are different. -/
theorem operations_grouped (h : outcome (groups document settings) r = (.ok built, t)) :
    ∃ (shared : Members) (listed : List ListedOperation),
      sharedParameters document = .ok shared ∧ listing document = listed.map .ok ∧
      (built.map TagGroup.name).Pairwise (· < ·) ∧
      (∀ o ∈ listed, ∃ g ∈ built, moduleName? settings o = some g.name) ∧
      (∀ g ∈ built, List.Forall₂
        (fun o m => o.endpoint = m.endpoint ∧
          ∃ name, IsBuilt document shared settings o { m with name := name })
        (listed.filter (moduleName? settings · = some g.name)) g.methods) ∧
      ((built.flatMap TagGroup.methods).map ClientMethod.endpoint).Perm
        (listed.map ListedOperation.endpoint) ∧
      ∀ ms, paths document = .ok ms → (ms.map Prod.fst).Nodup → ∀ o ∈ listed,
        ((built.flatMap TagGroup.methods).map ClientMethod.endpoint).count o.endpoint = 1 := by
  obtain ⟨shared, listed, gs, hshared, hlisted, hcollects, rfl⟩ := groups_ok h
  have hgs := hcollects.collected
  have hperm := inOrder_perm (gs.map TagGroup.renamed)
  have hnames : (gs.map TagGroup.renamed).map TagGroup.name = gs.map TagGroup.name := by
    rw [List.map_map]
    rfl
  have hendpoints : (((inOrder (gs.map TagGroup.renamed)).flatMap TagGroup.methods).map
      ClientMethod.endpoint).Perm (listed.map ListedOperation.endpoint) := by
    refine ((hperm.flatMap_right _).map _).trans ?_
    have hsame : ((gs.map TagGroup.renamed).flatMap TagGroup.methods).map ClientMethod.endpoint =
        (gs.flatMap TagGroup.methods).map ClientMethod.endpoint := by
      simp only [List.map_flatMap, List.flatMap_map, endpoints_renamed]
    exact hsame ▸ hgs.endpoints
  refine ⟨shared, listed, hshared, hlisted, inOrder_strict (hnames ▸ hgs.nodup), fun o ho => ?_,
    fun g hg => ?_, hendpoints, fun ms hms hnodup o ho => ?_⟩
  · obtain ⟨g, hg, hmodule⟩ := hgs.modules o ho
    exact ⟨g.renamed, hperm.mem_iff.mpr (List.mem_map_of_mem hg), hmodule⟩
  · obtain ⟨old, hold, rfl⟩ := List.mem_map.mp (hperm.mem_iff.mp hg)
    refine (forall₂_renamed (hgs.methods old hold)).imp fun o m ⟨name, hm⟩ => ⟨?_, name, hm⟩
    exact hm.builds.endpoint.symm
  · rw [hendpoints.count_eq]
    exact List.count_eq_one_of_mem (nodup_endpoints hlisted hms hnodup) (List.mem_map_of_mem ho)

/-- A document of operations that are reached by `GET` and answer with nothing, each given by its
path, its id and its tag. -/
def taggedDocument (operations : List (String × String × String)) : Value :=
  let operation (id tag : String) : Value := .mapping [(.text "operationId", .text id),
    (.text "tags", .sequence [.text tag]),
    (.text "responses", .mapping [(.text "204", .mapping [])])]
  .mapping [(.text "paths", .mapping (operations.map fun (path, id, tag) =>
    (.text path, .mapping [(.text "get", operation id tag)])))]

def taggedRun (operations : List (String × String × String)) :
    Except Fault (List TagGroup) × Registry :=
  outcome (groups (taggedDocument operations) .default) {}

/-- Three operations of two tags, one of them written in two ways, with another one in between. -/
def interleavedRun : Except Fault (List TagGroup) × Registry :=
  taggedRun [("/a", "list", "Tag"), ("/b", "list", "other"), ("/c", "list", "tag")]

theorem operations_grouped_interleaved :
    ∃ (built : List TagGroup) (listed : List ListedOperation), interleavedRun.1 = .ok built ∧
      listed.map ListedOperation.endpoint =
        [(.text "/a", .get), (.text "/b", .get), (.text "/c", .get)] ∧
      listed.map (moduleName? .default) = [some "tag", some "other", some "tag"] ∧
      (built.map TagGroup.name).Pairwise (· < ·) ∧
      ∀ o ∈ listed, (∃ g ∈ built, moduleName? .default o = some g.name) ∧
        ((built.flatMap TagGroup.methods).map ClientMethod.endpoint).count o.endpoint = 1 := by
  cases hrun : interleavedRun with
  | mk x r =>
    cases x with
    | error fault =>
      have hok : interleavedRun.1.isOk := by decide +kernel
      rw [hrun] at hok
      cases hok
    | ok built =>
      obtain ⟨_, listed, -, hlisted, hstrict, hmodules, -, -, honce⟩ := operations_grouped hrun
      refine ⟨built, listed, rfl, ?_, ?_, hstrict, fun o ho => ⟨hmodules o ho, ?_⟩⟩
      · rw [map_listed hlisted]
        decide
      · rw [map_listed hlisted]
        decide
      · exact honce _ rfl (by decide) o ho

end Operation

end OpenApiClient

import OpenApiClient.Proofs.MergedParameters

/-! # Which operations are listed

A path declares an operation by a value for its method that is not null. The operations are listed
path by path as the document has them, and within a path by the fixed order of methods: each of them
once, with the parameters of its path merged into its own. Only where these cannot be merged the list
ends. -/
namespace OpenApiClient.Operation

/-- An operation with the path item that declares it. -/
structure Declared where
  path : Scalar
  method : HttpMethod
  item : Value
  declaration : Value

namespace Declared

/-- Whether an operation is declared under the paths of a document. -/
structure In (o : Declared) (paths : Members) : Prop where
  item : (o.path, o.item) ∈ paths
  declaration : o.item.get o.method.key = .ok o.declaration
  present : o.declaration ≠ .null

/-- The position of the path among the paths, and that of the method among all methods. -/
def position (paths : Members) (o : Declared) : Nat × Nat :=
  ((paths.map Prod.fst).idxOf o.path, HttpMethod.all.idxOf o.method)

/-- Whether there is nothing to merge, or all that is to be merged has labels. -/
def Mergeable (o : Declared) : Prop :=
  parametersOf o.item = .ok [] ∨ ∃ shared own, Takes o.item o.declaration shared own

end Declared

/-- A declared operation is listed as it stands where its path declares no parameters, and otherwise
with the parameters of its path before its own, but for those that it declares itself. What is not
mergeable ends the list. -/
inductive Lists : Declared → Except Fault ListedOperation → Prop
  | unchanged {o : Declared} (h : parametersOf o.item = .ok []) :
      Lists o (.ok ⟨o.path, o.method, o.declaration⟩)
  | merged {o : Declared} {shared own : List Value} (h : Takes o.item o.declaration shared own)
      (hshared : shared ≠ []) :
      Lists o (.ok ⟨o.path, o.method,
        withParameters o.declaration (mergedBy writtenAlike shared own)⟩)
  | ends {o : Declared} (h : ¬ o.Mergeable) : Lists o (.error .wrongType)

variable {document item : Value} {ms fields : Members} {path : Scalar} {o : Declared}

def declaredAt? (path : Scalar) (item : Value) (method : HttpMethod) : Option Declared :=
  match item.get method.key with
  | .ok .null | .error _ => none
  | .ok declaration => some ⟨path, method, item, declaration⟩

def declaredBy (path : Scalar) (item : Value) : List Declared :=
  HttpMethod.all.filterMap (declaredAt? path item)

theorem declaredAt?_eq_some_iff {method : HttpMethod} : declaredAt? path item method = some o ↔
    o.path = path ∧ o.item = item ∧ o.method = method ∧
      item.get method.key = .ok o.declaration ∧ o.declaration ≠ .null := by
  unfold declaredAt?
  split
  · rename_i hnull
    exact ⟨nofun, fun ⟨_, _, _, hget, hne⟩ => absurd (Except.ok.inj (hget.symm.trans hnull)) hne⟩
  · rename_i herror
    exact ⟨nofun, fun ⟨_, _, _, hget, _⟩ => nomatch hget.symm.trans herror⟩
  · rename_i declaration hnull hdeclaration
    constructor
    · intro h
      obtain rfl := Option.some.inj h
      exact ⟨rfl, rfl, rfl, hdeclaration, hnull⟩
    · rintro ⟨rfl, rfl, rfl, hget, -⟩
      rw [← Except.ok.inj (hget.symm.trans hdeclaration)]

theorem mem_declaredBy : o ∈ declaredBy path item ↔
    o.path = path ∧ o.item = item ∧ item.get o.method.key = .ok o.declaration ∧
      o.declaration ≠ .null := by
  simp only [declaredBy, List.mem_filterMap, declaredAt?_eq_some_iff]
  constructor
  · rintro ⟨_, -, hpath, hitem, rfl, hdeclared⟩
    exact ⟨hpath, hitem, hdeclared⟩
  · rintro ⟨hpath, hitem, hdeclared⟩
    exact ⟨_, HttpMethod.mem_all _, hpath, hitem, rfl, hdeclared⟩

theorem pairwise_idxOf {α : Type} [DecidableEq α] {l : List α} (h : l.Nodup) :
    l.Pairwise fun a b => l.idxOf a < l.idxOf b := by
  refine List.pairwise_iff_getElem.mpr fun i j hi hj hij => ?_
  rwa [h.idxOf_getElem, h.idxOf_getElem]

def entryOf (o : Declared) : Except Fault ListedOperation := do
  let shared ← o.item.get "parameters"
  (withShared shared o.declaration).map fun d => ⟨o.path, o.method, d⟩

theorem entryOf_lists (hitem : o.item = .mapping fields) : Lists o (entryOf o) := by
  obtain ⟨v, hv⟩ : ∃ v, o.item.get "parameters" = .ok v := ⟨_, by rw [hitem, get_mapping]⟩
  have hentry : entryOf o = (withShared v o.declaration).map fun d => ⟨o.path, o.method, d⟩ := by
    rw [entryOf, hv]
    rfl
  by_cases hnone : parametersOf o.item = .ok []
  · rw [hentry, withShared_of_none hv hnone]
    exact .unchanged hnone
  by_cases htakes : ∃ shared own, Takes o.item o.declaration shared own
  · obtain ⟨shared, own, h⟩ := htakes
    have hshared : shared ≠ [] := fun hnil => hnone (hnil ▸ h.listed)
    rw [hentry, h.withShared_eq hv hshared]
    exact .merged h hshared
  · rw [hentry, withShared_of_not_takes hv hnone fun shared own h => htakes ⟨shared, own, h⟩]
    exact .ends (not_or.mpr ⟨hnone, htakes⟩)

theorem ofItem_eq (path : Scalar) (fields : Members) :
    ofItem path (.mapping fields) = (declaredBy path (.mapping fields)).map entryOf := by
  rw [declaredBy, List.map_filterMap]
  unfold ofItem
  refine List.filterMap_congr fun method _ => ?_
  rw [declaredAt?, get_mapping]
  generalize (Members.get? fields method.key).getD .null = declaration
  rcases declaration with (_ | _ | _ | _ | _) | _ | _ <;> rfl

def entriesAt (document : Value) (path : Scalar) (item : Value) :
    List (Except Fault ListedOperation) :=
  match pathItem document item with
  | .error fault => [.error fault]
  | .ok item => ofItem path item

theorem listing_eq_flatMap (hpaths : paths document = .ok ms) :
    listing document = ms.flatMap fun m => entriesAt document m.1 m.2 := by
  rw [listing, hpaths]
  rfl

theorem pathItem_of_inline (h : Members.get? fields "$ref" = none) :
    pathItem document (.mapping fields) = .ok (.mapping fields) := by
  rw [pathItem, Value.mentions_mapping, Members.has, h]
  rfl

/-- A document without references among its path items lists what they declare. -/
theorem listing_eq (hpaths : paths document = .ok ms)
    (hinline : ∀ m ∈ ms, ∃ fields, m.2 = .mapping fields ∧ Members.get? fields "$ref" = none) :
    listing document = (ms.flatMap fun m => declaredBy m.1 m.2).map entryOf := by
  rw [listing_eq_flatMap hpaths, List.map_flatMap]
  refine List.flatMap_congr fun m hm => ?_
  obtain ⟨fields, hitem, href⟩ := hinline m hm
  rw [entriesAt, hitem, pathItem_of_inline href, ← ofItem_eq]

private theorem mem_declared : o ∈ ms.flatMap (fun m => declaredBy m.1 m.2) ↔ o.In ms := by
  rw [List.mem_flatMap]
  constructor
  · rintro ⟨⟨path, item⟩, hm, ho⟩
    obtain ⟨rfl, rfl, hget, hpresent⟩ := mem_declaredBy.mp ho
    exact ⟨hm, hget, hpresent⟩
  · intro h
    exact ⟨_, h.item, mem_declaredBy.mpr ⟨rfl, rfl, h.declaration, h.present⟩⟩

private theorem pairwise_declaredBy (path : Scalar) (item : Value) :
    (declaredBy path item).Pairwise fun a b =>
      HttpMethod.all.idxOf a.method < HttpMethod.all.idxOf b.method := by
  have hall : HttpMethod.all.Pairwise fun a b => HttpMethod.all.idxOf a < HttpMethod.all.idxOf b :=
    pairwise_idxOf (by decide)
  refine hall.filterMap _ fun a b hlt x hx y hy => ?_
  obtain ⟨-, -, rfl, -⟩ := declaredAt?_eq_some_iff.mp hx
  obtain ⟨-, -, rfl, -⟩ := declaredAt?_eq_some_iff.mp hy
  exact hlt

/-- The declared operations come in the order of their paths and then of their methods. -/
theorem pairwise_declared (hkeys : (ms.map Prod.fst).Nodup) :
    (ms.flatMap fun m => declaredBy m.1 m.2).Pairwise fun a b =>
      Prod.Lex (· < ·) (· < ·) (a.position ms) (b.position ms) := by
  have hpaths : ms.Pairwise fun m n =>
      (ms.map Prod.fst).idxOf m.1 < (ms.map Prod.fst).idxOf n.1 :=
    List.Pairwise.of_map Prod.fst (fun _ _ h => h) (pairwise_idxOf hkeys)
  -- Within a path the methods decide, and otherwise the paths do.
  refine List.pairwise_flatMap.mpr ⟨fun m _ => ?_, hpaths.imp fun hlt a ha b hb => ?_⟩
  · refine (pairwise_declaredBy m.1 m.2).imp_of_mem fun ha hb hlt => ?_
    obtain ⟨hapath, -⟩ := mem_declaredBy.mp ha
    obtain ⟨hbpath, -⟩ := mem_declaredBy.mp hb
    rw [Declared.position, Declared.position, hapath, hbpath]
    exact .right _ hlt
  · obtain ⟨hapath, -⟩ := mem_declaredBy.mp ha
    obtain ⟨hbpath, -⟩ := mem_declaredBy.mp hb
    rw [Declared.position, Declared.position, hapath, hbpath]
    exact .left _ _ hlt

theorem Lists.mergeable_iff {entry : Except Fault ListedOperation} (h : Lists o entry) :
    o.Mergeable ↔ ∃ listed, entry = .ok listed := by
  cases h with
  | unchanged hnone => exact iff_of_true (.inl hnone) ⟨_, rfl⟩
  | merged htakes _ => exact iff_of_true (.inr ⟨_, _, htakes⟩) ⟨_, rfl⟩
  | ends hnot => exact iff_of_false hnot nofun

/-- The list of operations goes to its end when all of them are mergeable. -/
theorem forall_mergeable_iff {entries : List (Except Fault ListedOperation)}
    {declared : List Declared} (h : List.Forall₂ Lists declared entries) :
    (∀ o ∈ declared, o.Mergeable) ↔
      ∃ listed : List ListedOperation, entries = listed.map .ok := by
  induction h with
  | nil => exact iff_of_true nofun ⟨[], rfl⟩
  | cons ho _ ih =>
    rw [List.forall_mem_cons, ho.mergeable_iff, ih]
    constructor
    · rintro ⟨⟨first, rfl⟩, rest, rfl⟩
      exact ⟨first :: rest, rfl⟩
    · rintro ⟨listed, hlisted⟩
      obtain ⟨first, rest, rfl, hfirst, hrest⟩ := List.map_eq_cons_iff.mp hlisted.symm
      exact ⟨⟨first, hfirst.symm⟩, rest, hrest.symm⟩

/-- A document without references among its path items lists exactly the operations that it declares,
each of them once, by the positions of their paths and then by the fixed order of the methods. Where
the path has parameters an operation is listed with those that it does not declare itself, and its own
ones behind them; where it has none the operation is listed as it is. The list goes to its end exactly
when all operations are mergeable, and otherwise it ends at the first one that is not. -/
theorem listing_declared {document : Value} {ms : Members} (hpaths : paths document = .ok ms)
    (hkeys : (ms.map Prod.fst).Nodup)
    (hinline : ∀ m ∈ ms, ∃ fields, m.2 = .mapping fields ∧ Members.get? fields "$ref" = none) :
    ∃ declared : List Declared,
      (∀ o, o ∈ declared ↔ o.In ms) ∧
      declared.Pairwise (fun a b => Prod.Lex (· < ·) (· < ·) (a.position ms) (b.position ms)) ∧
      List.Forall₂ Lists declared (listing document) ∧
      ((∀ o ∈ declared, o.Mergeable) ↔
        ∃ listed : List ListedOperation, listing document = listed.map .ok) := by
  have hlists : List.Forall₂ Lists (ms.flatMap fun m => declaredBy m.1 m.2) (listing document) := by
    rw [listing_eq hpaths hinline, List.forall₂_map_right_iff, List.forall₂_same]
    intro o ho
    obtain ⟨fields, hitem, -⟩ := hinline _ (mem_declared.mp ho).item
    exact entryOf_lists hitem
  exact ⟨_, fun o => mem_declared, pairwise_declared hkeys, hlists, forall_mergeable_iff hlists⟩

def placed (name place : Value) : Value := .mapping [(.text "name", name), (.text "in", place)]

/-- Two paths with the parameters of the second one and those of its operation. The operations are
out of order, and one of them is null. -/
def twoPaths (shared own : List Value) : Members :=
  [(.text "/b", .mapping [(.text "put", .empty), (.text "post", .null), (.text "get", .empty)]),
    (.text "/a", .mapping [(.text "get", .mapping [(.text "parameters", .sequence own)]),
      (.text "parameters", .sequence shared)])]

def documentOf (ms : Members) : Value := .mapping [(.text "paths", .mapping ms)]

theorem twoPaths_inline (shared own : List Value) : ∀ m ∈ twoPaths shared own,
    ∃ fields, m.2 = .mapping fields ∧ Members.get? fields "$ref" = none := by
  rintro m (_ | ⟨_, _ | ⟨_, _ | _⟩⟩)
  · exact ⟨_, rfl, rfl⟩
  · exact ⟨_, rfl, rfl⟩

def mergedPaths : Members :=
  twoPaths [placed (.text "id") (.text "path"), placed (.text "q") (.text "query")]
    [placed (.text "q") (.text "query"), placed (.text "r") (.text "query")]

theorem listing_declared_two : ∃ declared : List Declared,
    (∀ o, o ∈ declared ↔ o.In mergedPaths) ∧ (∀ o ∈ declared, o.Mergeable) ∧
    ∃ listed : List ListedOperation, listing (documentOf mergedPaths) = listed.map .ok ∧
      declared.length = 3 ∧ listed.map (fun o => (o.path, o.method)) =
        [(.text "/b", .get), (.text "/b", .put), (.text "/a", .get)] ∧
      listed.map (fun o => (parametersOf o.declaration).toOption) = [some [], some [],
        some [placed (.text "id") (.text "path"), placed (.text "q") (.text "query"),
          placed (.text "r") (.text "query")]] := by
  have hpaths : paths (documentOf mergedPaths) = .ok mergedPaths := rfl
  obtain ⟨declared, hdeclared, -, hlists, hend⟩ :=
    listing_declared hpaths (by decide) (twoPaths_inline _ _)
  exact ⟨declared, hdeclared, hend.mpr ⟨[_, _, _], rfl⟩, [_, _, _], rfl, hlists.length_eq, rfl, rfl⟩

def unlabelledPaths : Members := twoPaths [placed (.sequence [.text "id"]) (.text "path")] []

/-- The operation of that path is declared, and yet it is not listed. -/
theorem not_listing_declared : ¬ ∀ (document : Value) (ms : Members), paths document = .ok ms →
    (ms.map Prod.fst).Nodup →
    (∀ m ∈ ms, ∃ fields, m.2 = .mapping fields ∧ Members.get? fields "$ref" = none) →
    ∀ o : Declared, o.In ms → ∃ d, .ok ⟨o.path, o.method, d⟩ ∈ listing document := by
  intro h
  have hlisting : listing (documentOf unlabelledPaths) = [.ok ⟨.text "/b", .get, .empty⟩,
      .ok ⟨.text "/b", .put, .empty⟩, .error .wrongType] := rfl
  have hdeclared : Declared.In ⟨.text "/a", .get, _, _⟩ unlabelledPaths :=
    ⟨List.mem_cons_of_mem _ List.mem_cons_self, rfl, nofun⟩
  obtain ⟨d, hd⟩ := h (documentOf unlabelledPaths) _ rfl (by decide) (twoPaths_inline _ _) _ hdeclared
  simp [hlisting] at hd

end OpenApiClient.Operation

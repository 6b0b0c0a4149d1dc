import OpenApiClient.Operation.Parameter
import OpenApiClient.Proofs.ListedOperations

/-! # Parameters that operations inherit

An operation overrides a parameter of its path with one of the same place and the same name. What is
compared are labels, however, which say nothing of what a reference refers to. So a reference and a
definition never override each other, and neither do two references to definitions of one parameter. -/
namespace OpenApiClient.Operation

variable {document item declaration p q raw : Value} {ms table : Members} {shared own ps : List Value}
  {path target place name : Scalar} {o : Declared} {method : HttpMethod}

/-- The place and the name of a parameter where it is defined, none if it is not defined. -/
def meaningOf? (table : Members) (p : Value) : Option (Scalar × Scalar) :=
  match lookupParameter table p with
  | .ok (definition, _) => placeAndName? definition
  | .error _ => none

/-- Whether two parameters are defined with the same place and the same name. -/
def meantAlike (table : Members) (p q : Value) : Bool :=
  match meaningOf? table p, meaningOf? table q with
  | some a, some b => sameParameter a b
  | _, _ => false

/-- Parameters that are defined, no two of them alike. -/
structure Apart (table : Members) (ps : List Value) : Prop where
  defined : ∀ p ∈ ps, (meaningOf? table p).isSome
  apart : ps.Pairwise fun p q => meantAlike table p q = false

/-- What a label means among shared parameters. -/
def Label.meaning? (table : Members) : Label → Option (Scalar × Scalar)
  | reference target => placeAndName? ((Members.at? table target).getD .null)
  | stated place name => some (place, name)

theorem meaningOf?_eq (table : Members) (p : Value) :
    meaningOf? table p = (labelOf? p).bind (Label.meaning? table) := by
  cases p with
  | mapping ms =>
    simp only [meaningOf?, lookupParameter, labelOf?, Value.mentions_mapping, Value.require,
      Value.get?_mapping, Members.has, bind, Except.bind]
    cases href : Members.get? ms "$ref" with
    | none =>
      cases hstated : placeAndName? (.mapping ms) <;>
        simp [hstated, Label.meaning?, pure, Except.pure]
    | some target =>
      cases target with
      | scalar target =>
        simp only [Option.bind_some, Label.meaning?, Value.asScalar]
        generalize (Members.at? table target).getD .null = found
        rcases found with (_ | _ | _ | _ | _) | _ | _ <;> cases target <;> rfl
      | _ => rfl
  | sequence items =>
    simp only [meaningOf?, lookupParameter, Value.mentions, bind, Except.bind]
    cases items.contains (.text "$ref") <;> rfl
  | scalar s =>
    cases s with
    | text s =>
      simp only [meaningOf?, lookupParameter, Value.mentions, bind, Except.bind]
      cases Text.occurs "$ref".toList s.toList <;> rfl
    | _ => rfl

private theorem Apart.labels (h : Apart table ps) : ∀ p ∈ ps, (labelOf? p).isSome := by
  intro p hp
  have hdefined := h.defined p hp
  rw [meaningOf?_eq] at hdefined
  exact Option.isSome_of_isSome_bind hdefined

/-- Where both are no references, parameters are written as they are meant. -/
theorem writtenAlike_of_stated {place' name' : Scalar} (hp : labelOf? p = some (.stated place name))
    (hq : labelOf? q = some (.stated place' name')) :
    writtenAlike p q = meantAlike table p q := by
  simp only [writtenAlike, meantAlike, meaningOf?_eq, hp, hq]
  rfl

private theorem any_writtenAlike_of_stated (hstated : ∀ p ∈ shared ++ own,
    ∃ place name, labelOf? p = some (.stated place name)) (hp : p ∈ shared) :
    own.any (writtenAlike p) = own.any (meantAlike table p) := by
  obtain ⟨_, _, hlabelp⟩ := hstated p (List.mem_append_left _ hp)
  refine Bool.eq_iff_iff.mpr ?_
  simp only [List.any_eq_true]
  refine exists_congr fun q => and_congr_right fun hq => ?_
  obtain ⟨_, _, hlabelq⟩ := hstated q (List.mem_append_right _ hq)
  rw [writtenAlike_of_stated hlabelp hlabelq]

private theorem writtenAlike_iff_labels : writtenAlike p q ↔
    ∃ a b, labelOf? p = some a ∧ labelOf? q = some b ∧ sameParameter a.key b.key := by
  unfold writtenAlike
  cases labelOf? p <;> cases labelOf? q <;> simp

private theorem meantAlike_iff_meanings : meantAlike table p q ↔
    ∃ a b, meaningOf? table p = some a ∧ meaningOf? table q = some b ∧ sameParameter a b := by
  unfold meantAlike
  cases meaningOf? table p <;> cases meaningOf? table q <;> simp

/-- Labels of one key have one meaning, when neither has the place `$ref`. -/
theorem Label.meaning?_of_key {a b : Label} {meaning : Scalar × Scalar}
    (ha : ∀ name, a ≠ .stated (.text "$ref") name) (hb : ∀ name, b ≠ .stated (.text "$ref") name)
    (h : sameParameter a.key b.key) (hmeaning : a.meaning? table = some meaning) :
    ∃ other, b.meaning? table = some other ∧ sameParameter meaning other := by
  obtain ⟨hplace, hname⟩ := Bool.and_eq_true_iff.mp h
  cases a with
  | reference target =>
    cases b with
    | reference other =>
      have htarget : Members.at? table target = Members.at? table other :=
        Members.at?_congr table hname
      rw [Label.meaning?, htarget] at hmeaning
      exact ⟨meaning, hmeaning, by simp [sameParameter]⟩
    | stated place name =>
      obtain rfl := Scalar.sameKey_text_iff.mp (Scalar.sameKey_comm _ _ ▸ hplace)
      exact absurd rfl (hb name)
  | stated place name =>
    cases b with
    | reference other =>
      obtain rfl := Scalar.sameKey_text_iff.mp hplace
      exact absurd rfl (ha name)
    | stated other otherName =>
      obtain rfl := Option.some.inj hmeaning
      exact ⟨_, rfl, h⟩

/-- Where none has the place `$ref`, parameters that are written alike mean the same. -/
theorem meantAlike_of_writtenAlike (hdefined : (meaningOf? table p).isSome)
    (hp : ∀ name, labelOf? p ≠ some (.stated (.text "$ref") name))
    (hq : ∀ name, labelOf? q ≠ some (.stated (.text "$ref") name)) (h : writtenAlike p q) :
    meantAlike table p q := by
  obtain ⟨a, b, ha, hb, hkey⟩ := writtenAlike_iff_labels.mp h
  obtain ⟨meaning, hmeaning⟩ := Option.isSome_iff_exists.mp hdefined
  have hlabel : a.meaning? table = some meaning := by simpa [meaningOf?_eq, ha] using hmeaning
  obtain ⟨other, hother, hsame⟩ := Label.meaning?_of_key (fun name heq => hp name (heq ▸ ha))
    (fun name heq => hq name (heq ▸ hb)) hkey hlabel
  refine meantAlike_iff_meanings.mpr ⟨meaning, other, hmeaning, ?_, hsame⟩
  rw [meaningOf?_eq, hb]
  exact hother

/-- Two ways to tell parameters apart merge them in the same way when they override the same ones. -/
theorem mergedBy_eq_iff {same same' : Value → Value → Bool} :
    mergedBy same shared own = mergedBy same' shared own ↔
      ∀ p ∈ shared, own.any (same p) = own.any (same' p) := by
  rw [mergedBy, mergedBy, List.append_left_inj]
  constructor
  · intro h p hp
    have hkept : ∀ same : Value → Value → Bool,
        p ∈ shared.filter (fun p => !own.any (same p)) ↔ (!own.any (same p)) = true := by
      intro same
      rw [List.mem_filter]
      exact and_iff_right hp
    exact Bool.not_inj (Bool.eq_iff_iff.mpr (by rw [← hkept, ← hkept, h]))
  · intro h
    exact List.filter_congr fun p hp => by rw [h p hp]

/-- Merged parameters are apart when each shared one that is overridden by its meaning is left out. -/
theorem apart_mergedBy_iff {same : Value → Value → Bool} (hshared : Apart table shared)
    (hown : Apart table own) : Apart table (mergedBy same shared own) ↔
      ∀ p ∈ shared, own.any (meantAlike table p) → own.any (same p) := by
  constructor
  · intro h p hp hmeant
    -- One that is kept stands in front of the own one that it means.
    by_contra hkept
    obtain ⟨q, hq, hpq⟩ := List.any_eq_true.mp hmeant
    have hmem : p ∈ shared.filter fun p => !own.any (same p) :=
      List.mem_filter.mpr ⟨hp, by simpa using hkept⟩
    have happart := (List.pairwise_append.mp h.apart).2.2 p hmem q hq
    cases hpq.symm.trans happart
  · intro h
    refine ⟨?_, List.pairwise_append.mpr
      ⟨hshared.apart.sublist List.filter_sublist, hown.apart, fun p hp q hq => ?_⟩⟩
    · intro p hp
      rcases List.mem_append.mp hp with hp | hp
      · exact hshared.defined p (List.mem_of_mem_filter hp)
      · exact hown.defined p hp
    · obtain ⟨hp, hkept⟩ := List.mem_filter.mp hp
      rw [Bool.eq_false_iff]
      intro hpq
      have hleft := h p hp (List.any_eq_true.mpr ⟨q, hq, hpq⟩)
      simp [hleft] at hkept

/-- An operation that can be merged is listed with the merged parameters. -/
theorem Takes.listed_entry (h : Takes o.item o.declaration shared own) :
    ∃ d, entryOf o = .ok ⟨o.path, o.method, d⟩ ∧
      parametersOf d = .ok (mergedBy writtenAlike shared own) := by
  obtain ⟨_, hget, -⟩ := except_bind_ok_iff.mp h.listed
  obtain ⟨fields, hitem, -⟩ := get_ok_iff.mp hget
  have hlists := entryOf_lists hitem
  generalize entryOf o = entry at hlists
  cases hlists with
  | unchanged hnone =>
    obtain rfl := Except.ok.inj (hnone.symm.trans h.listed)
    exact ⟨_, rfl, h.declared⟩
  | merged h' _ =>
    obtain rfl := Except.ok.inj (h'.listed.symm.trans h.listed)
    obtain rfl := Except.ok.inj (h'.declared.symm.trans h.declared)
    exact ⟨_, rfl, parametersOf_withParameters h.declared _⟩
  | ends hnot => exact absurd (.inr ⟨shared, own, h⟩) hnot

/-- What an operation is listed as stands among what is listed for the path item that declares it. -/
theorem mem_listing (hpaths : paths document = .ok ms) (hraw : (path, raw) ∈ ms)
    (hitem : pathItem document raw = .ok item)
    (hdeclaration : item.get method.key = .ok declaration) (hpresent : declaration ≠ .null) :
    entryOf ⟨path, method, item, declaration⟩ ∈ listing document := by
  obtain ⟨fields, rfl, -⟩ := get_ok_iff.mp hdeclaration
  rw [listing_eq_flatMap hpaths]
  refine List.mem_flatMap.mpr ⟨_, hraw, ?_⟩
  rw [entriesAt, hitem]
  dsimp only
  rw [ofItem_eq]
  exact List.mem_map_of_mem (mem_declaredBy.mpr ⟨rfl, rfl, hdeclaration, hpresent⟩)

/-- An operation and its path list parameters, each of them without two that mean the same among the
shared ones of `table`. The operation is listed with its own ones behind those of its path that none of
them is written alike to. Two of these mean the same exactly when a parameter of the path means what one
of the operation does and is written as none of them. One that the operation does not declare is lost for
a parameter of the place `$ref` only. Where no reference is involved the operation overrides exactly what
it declares itself. -/
theorem inherited_parameters (document : Value) (table : Members) (method : HttpMethod)
    (hpaths : paths document = .ok ms) (hraw : (path, raw) ∈ ms)
    (hitem : pathItem document raw = .ok item)
    (hdeclaration : item.get method.key = .ok declaration) (hpresent : declaration ≠ .null)
    (hlisted : parametersOf item = .ok shared) (hdeclared : parametersOf declaration = .ok own)
    (hshared : Apart table shared) (hown : Apart table own) :
    ∃ d, .ok ⟨path, method, d⟩ ∈ listing document ∧
      parametersOf d = .ok (mergedBy writtenAlike shared own) ∧
      (mergedBy writtenAlike shared own = mergedBy (meantAlike table) shared own ↔
        ∀ p ∈ shared, own.any (writtenAlike p) = own.any (meantAlike table p)) ∧
      (Apart table (mergedBy writtenAlike shared own) ↔
        ∀ p ∈ shared, own.any (meantAlike table p) → own.any (writtenAlike p)) ∧
      ((∀ p ∈ shared ++ own, ∀ name, labelOf? p ≠ some (.stated (.text "$ref") name)) →
        ∀ p ∈ shared, own.any (writtenAlike p) → own.any (meantAlike table p)) ∧
      ((∀ p ∈ shared ++ own, ∃ place name, labelOf? p = some (.stated place name)) →
        mergedBy writtenAlike shared own = mergedBy (meantAlike table) shared own) := by
  have htakes : Takes item declaration shared own := by
    refine ⟨hlisted, hdeclared, fun p hp => ?_⟩
    exact (List.mem_append.mp hp).elim (hshared.labels p) (hown.labels p)
  obtain ⟨d, hentry, hd⟩ := Takes.listed_entry (o := ⟨path, method, item, declaration⟩) htakes
  have hmem := mem_listing hpaths hraw hitem hdeclaration hpresent
  rw [hentry] at hmem
  refine ⟨d, hmem, hd, mergedBy_eq_iff, apart_mergedBy_iff hshared hown, fun hplaces p hp h => ?_,
    fun hstated => mergedBy_eq_iff.mpr fun p hp => any_writtenAlike_of_stated hstated hp⟩
  obtain ⟨q, hq, hpq⟩ := List.any_eq_true.mp h
  refine List.any_eq_true.mpr ⟨q, hq, ?_⟩
  exact meantAlike_of_writtenAlike (hshared.defined p hp)
    (hplaces p (List.mem_append_left _ hp)) (hplaces q (List.mem_append_right _ hq)) hpq

def inheriting (shared own : List Value) : Value :=
  .mapping [(.text "paths", .mapping [(.text "/a", .mapping [(.text "parameters", .sequence shared),
      (.text "get", .mapping [(.text "parameters", .sequence own)])])]),
    (.text "components", .mapping [(.text "parameters", .mapping [
      (.text "id", placed (.text "id") (.text "path")),
      (.text "q", placed (.text "q") (.text "query"))])])]

def sharedTwo : Members :=
  [(.text "#/components/parameters/id", placed (.text "id") (.text "path")),
    (.text "#/components/parameters/q", placed (.text "q") (.text "query"))]

def idReference : Value := .mapping [(.text "$ref", .text "#/components/parameters/id")]

def qReference : Value := .mapping [(.text "$ref", .text "#/components/parameters/q")]

/-- The operation overrides one parameter by a definition, and takes over a reference to the other. -/
theorem inherited_parameters_two :
    sharedParameters (inheriting [placed (.text "id") (.text "path"), qReference]
      [placed (.text "id") (.text "path")]) = .ok sharedTwo ∧
    ∃ d, .ok ⟨.text "/a", .get, d⟩ ∈ listing (inheriting [placed (.text "id") (.text "path"),
        qReference] [placed (.text "id") (.text "path")]) ∧
      parametersOf d = .ok [qReference, placed (.text "id") (.text "path")] ∧
      Apart sharedTwo [qReference, placed (.text "id") (.text "path")] := by
  refine ⟨rfl, ?_⟩
  obtain ⟨d, hmem, hd, -, hapart, -, -⟩ :=
    inherited_parameters (inheriting [placed (.text "id") (.text "path"), qReference]
      [placed (.text "id") (.text "path")]) sharedTwo .get rfl List.mem_cons_self rfl rfl nofun rfl rfl
      ⟨by decide, by decide⟩ ⟨by decide, by decide⟩
  exact ⟨d, hmem, hd, hapart.mpr (by decide)⟩

/-- The operation refers to a parameter that its path defines, and is listed with both. -/
theorem not_inherited_parameters : ¬ ∀ (document : Value) (ms table : Members) (path : Scalar)
    (item : Value) (method : HttpMethod) (declaration : Value) (shared own : List Value),
    paths document = .ok ms → sharedParameters document = .ok table → (path, item) ∈ ms →
    item.get method.key = .ok declaration → parametersOf item = .ok shared →
    parametersOf declaration = .ok own → Apart table shared → Apart table own →
    ∀ d, .ok ⟨path, method, d⟩ ∈ listing document →
      ∃ merged, parametersOf d = .ok merged ∧ Apart table merged := by
  intro h
  obtain ⟨merged, hmerged, hapart⟩ := h (inheriting [placed (.text "id") (.text "path")] [idReference])
    _ sharedTwo (.text "/a") _ .get _ _ _ rfl rfl List.mem_cons_self rfl rfl rfl ⟨by decide, by decide⟩
    ⟨by decide, by decide⟩ _ List.mem_cons_self
  obtain rfl : [placed (.text "id") (.text "path"), idReference] = merged := Except.ok.inj hmerged
  exact absurd hapart.apart (by decide)

end OpenApiClient.Operation

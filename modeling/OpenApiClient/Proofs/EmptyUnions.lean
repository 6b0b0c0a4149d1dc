import OpenApiClient.Proofs.AnnotationGrammar
import OpenApiClient.Proofs.DescribedBodies

/-! # Unions without members

A union without members is written as nothing, and so is no annotation; every type of which it is no
part is written as one. Such a union comes from an empty list of alternatives or of types alone. -/
namespace OpenApiClient.Schema

open RegistryM

variable {document : Value} {ms ns : Members} {b : Body} {ids : List TypeId}

/-! ## Schemas with choices -/

/-- Whether the alternatives of a schema are not empty, and neither are its types. -/
structure HasChoices (ms : Members) : Prop where
  alternatives : ∀ key ∈ ["oneOf", "anyOf"], ∀ v ∈ Members.get? ms key, v.elements ≠ .ok []
  types : ∀ v ∈ Members.get? ms "type", .sequence [] ∉ v.nodes

instance (ms : Members) : Decidable (HasChoices ms) :=
  decidable_of_iff ((∀ key ∈ ["oneOf", "anyOf"], ∀ v ∈ Members.get? ms key, v.elements ≠ .ok []) ∧
      ∀ v ∈ Members.get? ms "type", Value.sequence [] ∉ v.nodes)
    ⟨fun h => ⟨h.1, h.2⟩, fun h => ⟨h.1, h.2⟩⟩

private theorem nonempty_typeWithoutNull {type rest : Value} (h : .sequence [] ∉ type.nodes)
    (hrest : typeWithoutNull type = some rest) : .sequence [] ∉ rest.nodes := by
  refine typeWithoutNull_keeps (P := fun v => .sequence [] ∉ v.nodes) h hrest ?_ ?_
  · exact fun hlist t ht hempty => hlist (Value.mem_nodes_sequence.mpr (.inr ⟨t, ht, hempty⟩))
  · intro types hne hall hempty
    rcases Value.mem_nodes_sequence.mp hempty with hself | ⟨t, ht, hempty⟩
    · exact hne (Value.sequence.inj hself).symm
    · exact hall t ht hempty

private theorem HasChoices.stripped (h : HasChoices ms) (hstripped : Stripped ms ns) :
    HasChoices ns := by
  constructor
  · intro key hkey v hv
    have hother : Members.get? ns key = Members.get? ms key := by
      simp only [List.mem_cons, List.not_mem_nil, or_false] at hkey
      rcases hkey with rfl | rfl <;> exact hstripped.other (by decide) (by decide) (by decide)
    exact h.alternatives key hkey v (hother ▸ hv)
  · intro rest hrest
    rw [hstripped.type] at hrest
    obtain ⟨type, htype, hrest⟩ := Option.bind_eq_some_iff.mp hrest
    exact nonempty_typeWithoutNull (h.types type htype) hrest

private theorem HasChoices.typed (h : HasChoices ms) {types : List Value} {t : Value}
    (hget : Members.get? ms "type" = some (.sequence types)) (ht : t ∈ types) :
    HasChoices (Members.set ms (.text "type") t) := by
  constructor
  · intro key hkey v hv
    have hother : Members.get? (Members.set ms (.text "type") t) key = Members.get? ms key := by
      rw [Members.get?_set, if_neg]
      simp only [List.mem_cons, List.not_mem_nil, or_false] at hkey
      rcases hkey with rfl | rfl <;> decide
    exact h.alternatives key hkey v (hother ▸ hv)
  · intro v hv
    rw [Members.get?_set, if_pos rfl] at hv
    obtain rfl := Option.some.inj hv
    exact fun hempty => h.types _ hget (Value.mem_nodes_sequence.mpr (.inr ⟨t, ht, hempty⟩))

private theorem partClosed_hasChoices (h : AllMappings HasChoices document) :
    PartClosed document (AllMappings HasChoices) :=
  partClosed_allMappings h ⟨by simp, by simp⟩ HasChoices.stripped (fun h hget ht => h.typed hget ht)
    fun _ => by
      constructor
      · simp [Members.get?_cons]
      · simp [Members.get?_cons]

/-! ## Bodies -/

theorem distinctIds_eq_nil_iff : distinctIds ids = [] ↔ ids = [] := by
  have hgrows : ∀ members : List TypeId, members ≠ [] → ids.foldl
      (fun members id => if members.contains id then members else members ++ [id]) members ≠ [] := by
    induction ids with
    | nil => exact fun members h => h
    | cons id rest ih =>
      intro members h
      refine ih _ ?_
      dsimp only
      split
      · exact h
      · simp
  cases ids with
  | nil => simp [distinctIds]
  | cons id rest => simpa [distinctIds] using hgrows [id] (by simp)

private theorem fill_objectLayer_ne_union {schema : Value} {hint : String} {outer : Layer}
    (h : objectLayer schema hint = .ok outer) : outer.frame.fill ids ≠ .union [] := by
  obtain ⟨_, -, ⟨_, _, -, -, -, rfl⟩ | ⟨-, rfl⟩⟩ := objectLayer_ok h
  · exact Body.noConfusion
  · exact Body.noConfusion

/-- Where all schemas have choices, no union is without members. -/
theorem IsDescribed.ne_emptyUnion (h : IsDescribed document (AllMappings HasChoices) b) :
    b ≠ .union [] := by
  cases h with
  | optional item => exact Body.noConfusion
  | waiting => exact Body.noConfusion
  | @layered schema hint outer ids h houter hids =>
    obtain ⟨ms, rfl, hlayer⟩ := isLayer_of_ok houter
    obtain ⟨hchoices, -⟩ := AllMappings.mapping_iff.mp h
    intro hempty
    cases hlayer with
    | merged _ _ _ houter => exact fill_objectLayer_ne_union houter hempty
    | object _ houter => exact fill_objectLayer_ne_union houter hempty
    | @choice key alternatives subs hkey halternatives hsubs =>
      have hnil : ids = [] := by
        simp only [unionLayer, Frame.fill] at hempty
        split at hempty
        · cases hempty
        · exact distinctIds_eq_nil_iff.mp (Body.union.inj hempty)
      have hsubsNil : subs = [] := by simpa [unionLayer, hnil, eq_comm] using hids
      exact hchoices.alternatives key (by simpa using hkey) _ halternatives (hsubsNil ▸ hsubs)
    | types htypes =>
      obtain rfl : ids = [] := Body.union.inj hempty
      rename_i types
      obtain rfl : types = [] := by simpa [unionLayer, eq_comm] using hids
      exact hchoices.types _ htypes (Value.mem_nodes_self _)
    | _ => cases hempty

/-! ## Annotations -/

private theorem Registry.not_showsEmptyUnion {r : Registry} {id : TypeId}
    (h : ∀ e ∈ r.entries.toList, e.body ≠ .union []) : ¬ r.ShowsEmptyUnion id := by
  intro hshows
  induction hshows with
  | here he hname hbody => exact h _ (Array.mem_toList_iff.mpr (Array.mem_of_getElem? he)) hbody
  | part he hname hi _ ih => exact ih

/-- After all calls, successful or not, every type is written as an annotation, in both views,
unless a union without members is part of it. There is no such union where no list of alternatives
and no list of types is empty, in the document and in the schemas of the calls. -/
theorem annotations_of_history (document : Value) (calls : List Call) {m : String}
    (hm : Text.isIdentifier m) :
    let r := Registry.history document calls
    (∀ (view : View) (id : TypeId), id < r.entries.size →
      ∃ text, r.typeText (.text m) view id = .ok text ∧
        (IsTypeText text ↔ ¬ r.ShowsEmptyUnion id)) ∧
      (AllMappings HasChoices document →
        (∀ call ∈ calls, AllMappings HasChoices call.schema) →
        ∀ id : TypeId, ¬ r.ShowsEmptyUnion id) := by
  intro r
  have hsteps := history_steps document calls
  refine ⟨fun view id hid => (history_wellFormed document calls).isTypeText_typeText_iff
    (hsteps.distinct Registry.distinct_empty) hm view hid, fun hdocument hcalls id => ?_⟩
  have hclosed := partClosed_hasChoices hdocument
  have hdescribed := history_described hclosed calls fun call hcall =>
    hclosed.orEmpty (hcalls call hcall)
  exact Registry.not_showsEmptyUnion fun e he => (hdescribed e he).ne_emptyUnion

def listingCall : Call where
  preferred := none
  schema := .mapping [(.text "type", .text "array"), (.text "items", .mapping
    [(.text "type", .sequence [.text "string", .text "null", .text "number"])])]
  nullable := false
  hint := ""

theorem annotations_of_history_listing :
    ∃ text, (Registry.history .empty [listingCall]).typeText (.text "models") .accepted 4 =
      .ok text ∧ IsTypeText text := by
  obtain ⟨hwritten, hnone⟩ := annotations_of_history .empty [listingCall]
    (show Text.isIdentifier "models" by decide)
  obtain ⟨text, htext, hwhole⟩ := hwritten .accepted 4 (by decide)
  exact ⟨text, htext, hwhole.mpr (hnone (by decide) (by decide) 4)⟩

/-- Without alternatives, nothing is written of a choice. -/
theorem not_isTypeText_of_no_alternatives :
    ∃ r, outcome (Schema.resolve .empty none (.mapping [(.text "oneOf", .sequence [])]) false "") {} =
      (.ok 0, r) ∧ r.typeText (.text "models") .owned 0 = .ok "" ∧ ¬ IsTypeText "" :=
  ⟨_, rfl, by decide +kernel, fun h => h.ne_empty rfl⟩

end OpenApiClient.Schema

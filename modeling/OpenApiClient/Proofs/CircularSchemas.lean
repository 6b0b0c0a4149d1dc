import OpenApiClient.Proofs.ResolutionEnds
import OpenApiClient.Proofs.Unfoldings

/-! # Schemas that are part of themselves

The types in the type of a shape stand before it, so a sound registry has no place for a schema that
is part of itself. What it has a place for hands the place on to all that is reached from there. -/
namespace OpenApiClient.Schema

open RegistryM Relation

variable {document schema v w last : Value} {hint : String} {r s t : Registry}
  {i limit : TypeId}

def Placed (document : Value) (r : Registry) (v : Value) (i : TypeId) : Prop :=
  ∃ w κ, Tame document w ∧ Alike v w ∧ identityOf w = .ok κ ∧ r.Knows κ i

/-- Whether some type has the body of a schema alike to this one, with types below a limit in it. -/
def Shown (document : Value) (r : Registry) (v : Value) (limit : TypeId) : Prop :=
  ∃ w id, Tame document w ∧ Alike v w ∧ Depicts document r limit w id

theorem Shown.part (hdocument : document.IsJson) (hr : Sound document r [])
    (hv : Tame document v) (h : Shown document r v limit) {ms : Members}
    (hpart : IsPart document v (.mapping ms)) : ∃ i < limit, Placed document r (.mapping ms) i := by
  obtain ⟨w, id, hw, halike, hlayer, hbody, hids, htable⟩ := h
  obtain ⟨hint, outer, houter, p, hp, hms⟩ := hpart
  have hparts := hw.part hdocument hlayer
  have hmappings := hr.hasMappings hparts hids fun hι => (htable hι).1
  obtain ⟨q, hq, hpq⟩ :=
    layer_covers hdocument hv hw halike houter hlayer hmappings p hp ms hms.symm
  obtain ⟨i, -, κ, hκ, hi⟩ := (exists_of_forall₂ hids).1 q hq
  have hjson := (hv.part hdocument houter p hp).1
  exact ⟨i, (htable hi).2, q.schema.orEmpty, κ, (hparts q hq).2, hms ▸ hpq.orEmpty hjson, hκ,
    (htable hi).1⟩

/-- A type that is known for a shape has the types in it before it. -/
theorem Placed.shown (hr : Sound document r []) (hv : Tame document v)
    (h : Placed document r v i) (hisRef : isReference v = .ok false) : Shown document r v i := by
  obtain ⟨w, κ, hw, halike, hκ, hi⟩ := h
  obtain ⟨x, limit, hx, hdepicts, ⟨text, rfl, -⟩ | ⟨-, rfl, hform⟩⟩ := hr.depicted hw hκ hi
  · rcases identityOf_ok_iff.mp hκ with ⟨hisRef', text', htext, -⟩ | ⟨-, key, -, hshape⟩
    · obtain ⟨hisRef'', -⟩ := reference_alike hw hv halike.symm hisRef' htext
      cases hisRef.symm.trans hisRef''
    · cases hshape
  · exact ⟨x, limit, hx, halike.trans hv.json hw.json (.same hform), hdepicts⟩

def HasPlace (document : Value) (r : Registry) (v : Value) : Prop :=
  (∃ i, Placed document r v i) ∨ ∃ limit, Shown document r v limit

private theorem isReference_of_part {part : Value} (h : IsPart document v part) :
    ∃ isRef, isReference v = .ok isRef := by
  obtain ⟨hint, outer, houter, -⟩ := h
  obtain ⟨ms, hms, houter⟩ := except_bind_ok_iff.mp houter
  obtain ⟨nullable, hnull, -⟩ := except_bind_ok_iff.mp houter
  obtain rfl := members_ok_iff.mp hms
  refine ⟨Members.has ms "$ref" && !nullable, ?_⟩
  rw [isReference, Value.mentions_mapping, hnull]
  cases Members.has ms "$ref" <;> rfl

theorem mapping_of_isReference (h : isReference v = .ok true) :
    ∃ ms, v = .mapping ms ∧ isNullable (.mapping ms) = .ok false := by
  obtain ⟨mentions, hmentions, h⟩ := except_bind_ok_iff.mp h
  split at h
  · obtain ⟨nullable, hnull, hnot⟩ := except_bind_ok_iff.mp h
    rw [except_pure_ok_iff, Bool.not_eq_true'] at hnot
    obtain ⟨ms, hms, -⟩ := except_bind_ok_iff.mp hnull
    obtain rfl := members_ok_iff.mp hms
    exact ⟨ms, rfl, hnot ▸ hnull⟩
  · cases h

private theorem isReference_eq (hv : Tame document v) (hw : Tame document w) (h : Alike v w)
    (hisRef : isReference v = .ok true) : isReference w = .ok true := by
  obtain ⟨ms, rfl, -⟩ := mapping_of_isReference hisRef
  obtain ⟨ns, rfl, hns⟩ := h.mapping hv.json
  exact isReference_alike hv.json hv.self hns ▸ hisRef

theorem layer_of_reference {text : String} (hisRef : isReference v = .ok true)
    (htext : v.require "$ref" = .ok (.text text)) (document : Value) (hint : String) :
    layer document v hint = .ok (singleLayer .synonym (refTo text) hint) := by
  obtain ⟨ms, rfl, hget⟩ := require_ok_iff.mp htext
  obtain ⟨_, hms, hnull⟩ := mapping_of_isReference hisRef
  obtain rfl := Value.mapping.inj hms
  simp only [layer, Value.members, hnull, hget, bind, Except.bind]
  rfl

theorem part_of_reference {text : String} (hisRef : isReference v = .ok true)
    (htext : v.require "$ref" = .ok (.text text)) :
    IsPart document v (refTo text) ∧ ∀ part, IsPart document v part → part = refTo text := by
  have hlayer := layer_of_reference hisRef htext document
  constructor
  · exact ⟨"", _, hlayer "", _, List.mem_cons_self, rfl⟩
  · rintro part ⟨hint, outer, houter, p, hp, rfl⟩
    obtain rfl := Except.ok.inj ((hlayer hint).symm.trans houter)
    rw [List.mem_singleton.mp hp]
    rfl

theorem Placed.reference (hdocument : document.IsJson) (hv : Tame document v)
    (h : Placed document r v i) (hisRef : isReference v = .ok true) :
    ∃ text, v.require "$ref" = .ok (.text text) ∧ Placed document r (refTo text) i := by
  obtain ⟨w, κ, hw, halike, hκ, hi⟩ := h
  rcases identityOf_ok_iff.mp hκ with ⟨hisRef', text, htext, rfl⟩ | ⟨hisRef', -⟩
  · obtain ⟨-, htext'⟩ := reference_alike hw hv halike.symm hisRef' htext
    have hpart : IsPart document v (refTo text) := (part_of_reference hisRef htext').1
    exact ⟨text, htext', refTo text, _, hv.leads hdocument (.part hpart), .refl _, rfl, hi⟩
  · cases hisRef'.symm.trans (isReference_eq hv hw halike hisRef)

theorem Placed.target (hr : Sound document r []) {text : String}
    (hv : Tame document (refTo text)) (h : Placed document r (refTo text) i) {target : Value}
    (htarget : lookup document text = .ok target) : ∃ limit, Shown document r target limit := by
  obtain ⟨w, κ, hw, halike, hκ, hi⟩ := h
  rcases identity_alike hv hw halike rfl hκ with ⟨_, htext, rfl⟩ | ⟨key, key', hshape, -⟩
  · obtain rfl := Identity.reference.inj htext
    rcases hr.reference hi with hopen | ⟨x, hlookup, hx, hdepicts⟩
    · cases hopen
    · obtain rfl := Except.ok.inj (htarget.symm.trans hlookup)
      exact ⟨_, target, i, hx, .refl _, hdepicts⟩
  · cases hshape

theorem HasPlace.part (hdocument : document.IsJson) (hr : Sound document r [])
    (hv : Tame document v) (h : HasPlace document r v) {ms : Members}
    (hpart : IsPart document v (.mapping ms)) : ∃ i, Placed document r (.mapping ms) i := by
  rcases h with ⟨i, hplaced⟩ | ⟨limit, hshown⟩
  · obtain ⟨isRef, hisRef⟩ := isReference_of_part hpart
    cases isRef with
    | true =>
      obtain ⟨text, htext, hplaced⟩ := hplaced.reference hdocument hv hisRef
      rw [(part_of_reference hisRef htext).2 _ hpart]
      exact ⟨i, hplaced⟩
    | false =>
      obtain ⟨j, -, hplaced⟩ := (hplaced.shown hr hv hisRef).part hdocument hr hv hpart
      exact ⟨j, hplaced⟩
  · obtain ⟨j, -, hplaced⟩ := hshown.part hdocument hr hv hpart
    exact ⟨j, hplaced⟩

theorem HasPlace.leads (hdocument : document.IsJson) (hr : Sound document r [])
    (hv : Tame document v) (h : HasPlace document r v) {ms : Members}
    (hleads : Leads document v (.mapping ms)) : HasPlace document r (.mapping ms) := by
  cases hleads with
  | part hpart => exact .inl (h.part hdocument hr hv hpart)
  | @target text _ hisRef htext htarget =>
    have hpart : IsPart document v (refTo text) := (part_of_reference hisRef htext).1
    obtain ⟨i, hplaced⟩ := h.part hdocument hr hv hpart
    exact .inr (hplaced.target hr (hv.leads hdocument (.part hpart)) htarget)

theorem mapping_of_leads (h : Leads document v w) : ∃ ms, v = .mapping ms := by
  cases h with
  | part hpart =>
    obtain ⟨hint, outer, houter, -⟩ := hpart
    obtain ⟨ms, rfl, -⟩ := isLayer_of_ok houter
    exact ⟨ms, rfl⟩
  | target _ htext _ =>
    obtain ⟨ms, rfl, -⟩ := require_ok_iff.mp htext
    exact ⟨ms, rfl⟩

/-- What has a place hands it on to all mappings that it reaches. -/
theorem HasPlace.reaches (hdocument : document.IsJson) (hr : Sound document r [])
    (hv : Tame document v) (h : HasPlace document r v) (hreach : Reaches document v last)
    {ms : Members} (hlast : last = .mapping ms) : HasPlace document r last := by
  induction hreach generalizing ms with
  | refl => exact h
  | tail hab hbc ih =>
    obtain ⟨ns, hns⟩ := mapping_of_leads hbc
    have hplace := ih hns
    subst hlast
    exact hplace.leads hdocument hr (hv.reaches hdocument hab) hbc

theorem Placed.within (hdocument : document.IsJson) (hr : Sound document r [])
    (hv : Tame document v) (h : Placed document r v i) {ms : Members}
    (hwithin : TransGen (Within document) v (.mapping ms)) :
    ∃ j < i, Placed document r (.mapping ms) j := by
  have hstep : ∀ {a ns j}, Tame document a → Placed document r a j →
      Within document a (.mapping ns) → ∃ k < j, Placed document r (.mapping ns) k :=
    fun ha hplaced hab => (hplaced.shown hr ha hab.1).part hdocument hr ha hab.2
  have hall : ∀ {b}, TransGen (Within document) v b → Tame document b ∧
      ∀ {ns}, b = .mapping ns → ∃ j < i, Placed document r b j := by
    intro b hvb
    induction hvb with
    | single hvb =>
      refine ⟨hv.leads hdocument hvb.leads, ?_⟩
      rintro ns rfl
      exact hstep hv h hvb
    | tail _ hbc ih =>
      obtain ⟨hb, hplaced⟩ := ih
      refine ⟨hb.leads hdocument hbc.leads, ?_⟩
      rintro ns rfl
      obtain ⟨ms, hms⟩ := mapping_of_leads hbc.leads
      obtain ⟨j, hj, hplaced⟩ := hplaced hms
      obtain ⟨k, hk, hplaced⟩ := hstep hb hplaced hbc
      exact ⟨k, Nat.lt_trans hk hj, hplaced⟩
  exact (hall hwithin).2 rfl

theorem Circular.mapping (h : Circular document v) : ∃ ms, v = .mapping ms := by
  obtain ⟨w, hvw, -⟩ := TransGen.head'_iff.mp h
  exact mapping_of_leads hvw.leads

theorem Placed.not_circular (hdocument : document.IsJson) (hr : Sound document r [])
    (hv : Tame document v) (h : Placed document r v i) : ¬ Circular document v := by
  -- Going once around the circle gives the schema a smaller type than it has.
  intro hcircular
  obtain ⟨ms, rfl⟩ := hcircular.mapping
  induction i using Nat.strong_induction_on with
  | h i ih =>
    obtain ⟨j, hj, hplaced⟩ := h.within hdocument hr hv hcircular
    exact ih j hj hplaced

/-- Nothing that is part of itself is reached from what has a place. -/
theorem HasPlace.not_circular (hdocument : document.IsJson) (hr : Sound document r [])
    (hv : Tame document v) (h : HasPlace document r v) : ¬ Circular document v := by
  intro hcircular
  obtain ⟨w, hvw, hwv⟩ := TransGen.head'_iff.mp hcircular
  have hturned : Circular document w := TransGen.tail' hwv hvw
  obtain ⟨ms, rfl⟩ := hturned.mapping
  obtain ⟨i, hplaced⟩ := h.part hdocument hr hv hvw.2
  exact hplaced.not_circular hdocument hr (hv.leads hdocument hvw.leads) hturned

private theorem hasPlace_of_ok (hdocument : document.IsJson) (htame : Tame document schema.orEmpty)
    (hr : Sound document r []) {preferred : Option String} {nullable : Bool}
    (h : outcome (Schema.resolve document preferred schema nullable hint) r = (.ok i, t)) :
    Sound document t [] ∧ HasPlace document t schema.orEmpty := by
  obtain ⟨inner, s, hs, ht, hgrown, -, ⟨-, ι, hι, hknows⟩ | ⟨-, limit, hdepicts⟩⟩ :=
    resolve_sound hdocument htame hr h
  · exact ⟨ht, .inl ⟨inner, schema.orEmpty, ι, htame, .refl _, hι, hgrown.knows hknows⟩⟩
  · have hbody : t.body? inner = s.body? inner := by
      obtain ⟨-, hbody, -, -⟩ := id hdepicts
      refine hgrown.body? ?_
      by_contra hnot
      simp [Registry.body?, Array.getElem?_eq_none (Nat.le_of_not_lt hnot)] at hbody
    exact ⟨ht, .inr ⟨limit, schema.orEmpty, inner, htame, .refl _,
      hdepicts.mono hbody hgrown.knows (Nat.le_refl _)⟩⟩

def followed (document schema : Value) : List Value :=
  let target := do lookup document (← (← schema.require "$ref").asText)
  let members := do (← schema.require "allOf").elements
  target.toOption.toList ++ members.toOption.getD []

private theorem mem_followed (h : Follows document v w) : w ∈ followed document v := by
  cases h with
  | target htext htarget =>
    refine List.mem_append_left _ ?_
    simp [htext, Value.asText, htarget, bind, Except.bind, Except.toOption]
  | member hall hsubs hmem =>
    refine List.mem_append_right _ ?_
    simp [hall, hsubs, bind, Except.bind, Except.toOption, hmem]

theorem follows_lt (h : Follows document v w) : w ∈ document.nodes ∨ w.weight < v.weight := by
  cases h with
  | target _ htarget => exact .inl (lookup_ok htarget).2
  | member hall hsubs hmem =>
    obtain ⟨ms, rfl, hget⟩ := require_ok_iff.mp hall
    have hmember := Value.weight_lt_weightMembers (Value.mem_of_get?_eq_some hget)
    have hle := weight_elements hsubs hmem
    rw [Value.weight]
    exact .inr (Nat.lt_of_le_of_lt hle (Nat.lt_add_left 1 hmember))

theorem follows_nodes (hv : v ∈ document.nodes ∨ ∃ s, v = .scalar s) (h : Follows document v w) :
    w ∈ document.nodes ∨ ∃ s, w = .scalar s := by
  have hnodes := hereditary_nodes document document
  cases h with
  | target _ htarget => exact .inl (lookup_ok htarget).2
  | member hall hsubs hmem =>
    obtain ⟨ms, rfl, hget⟩ := require_ok_iff.mp hall
    have hv : _ ∈ document.nodes ++ document.nodes ∨ _ :=
      hv.imp_left (List.mem_append_left _)
    simpa using hnodes.elements (hnodes.get? hv hget) hsubs _ hmem

theorem not_follows_scalar {s : Scalar} : ¬ Follows document (.scalar s) w := by
  intro h
  cases h with
  | target htext _ => cases htext
  | member hall _ _ => cases hall

/-- A schema that following comes back to is a node of the document. -/
theorem mem_nodes_of_cycle (h : TransGen (Follows document) v v) : v ∈ document.nodes := by
  have hpath : ∀ {w}, TransGen (Follows document) v w →
      (w ∈ document.nodes ∨ ∃ s, w = .scalar s) ∨ w.weight < v.weight := by
    intro w hvw
    induction hvw with
    | single hvw => exact (follows_lt hvw).imp_left .inl
    | tail _ hbc ih =>
      rcases ih with hnode | hlt
      · exact .inl (follows_nodes hnode hbc)
      · rcases follows_lt hbc with hnode | hlt'
        · exact .inl (.inl hnode)
        · exact .inr (Nat.lt_trans hlt' hlt)
  rcases hpath h with (hnode | ⟨s, rfl⟩) | hlt
  · exact hnode
  · obtain ⟨w, hvw, -⟩ := TransGen.head'_iff.mp h
    exact absurd hvw not_follows_scalar
  · exact absurd hlt (Nat.lt_irrefl _)

theorem not_cycle_of_rank (rank : Value → Nat)
    (h : ∀ v ∈ document.nodes, ∀ w ∈ followed document v, rank w < rank v) :
    ∀ v ∈ document.nodes, ¬ TransGen (Follows document) v v := by
  intro v hv hcycle
  have hpath : ∀ {w}, TransGen (Follows document) v w →
      rank w < rank v ∧ (w ∈ document.nodes ∨ ∃ s, w = .scalar s) := by
    intro w hvw
    induction hvw with
    | single hvw => exact ⟨h v hv _ (mem_followed hvw), follows_nodes (.inl hv) hvw⟩
    | tail _ hbc ih =>
      obtain ⟨hlt, hnode⟩ := ih
      rcases hnode with hnode | ⟨s, rfl⟩
      · exact ⟨Nat.lt_trans (h _ hnode _ (mem_followed hbc)) hlt, follows_nodes (.inl hnode) hbc⟩
      · exact absurd hbc not_follows_scalar
  exact Nat.lt_irrefl _ (hpath hcycle).1

/-- Where following never comes back to a schema of the document, a call without an end reaches a
schema that is part of itself, by way of one that extends several others. Where a schema that is
part of itself is reached, no call succeeds. -/
theorem endless_only_where_circular
    (hflat : ∀ v ∈ document.nodes, ¬ TransGen (Follows document) v v)
    (preferred : Option String) (schema : Value) (nullable : Bool) (hint : String) :
    (∀ r, (outcome (Schema.resolve document preferred schema nullable hint) r).1 =
        .error .endless →
      ∃ last, Reaches document schema.orEmpty last ∧ Circular document last ∧
        ∃ merged, Reaches document last merged ∧ Merges merged) ∧
    ∀ last, Reaches document schema.orEmpty last → Circular document last → document.IsJson →
      Tame document schema.orEmpty → ∀ (calls : List Call) (ids : List TypeId) (r : Registry),
        (∀ call ∈ calls, Tame document call.schema.orEmpty) →
        outcome (calls.mapM (Call.run document)) {} = (.ok ids, r) →
        ∀ id, (outcome (Schema.resolve document preferred schema nullable hint) r).1 ≠ .ok id := by
  constructor
  · intro r hendless
    obtain ⟨last, hreach, ⟨-, subs, -, sub, -, hflatten⟩ | hcircular⟩ := resolve_endless hendless
    · obtain ⟨v, -, hcycle⟩ := flatten_endless hflatten
      exact absurd hcycle (hflat v (mem_nodes_of_cycle hcycle))
    · refine ⟨last, hreach, hcircular, ?_⟩
      rcases bulk_lt_of_transGen hcircular with hlt | hmerged
      · exact absurd hlt (Nat.lt_irrefl _)
      · exact hmerged
  · intro last hreach hcircular hdocument hschema calls ids r hcalls hr id hok
    have hsound := calls_sound hdocument hcalls sound_empty hr
    obtain ⟨ht, hplace⟩ := hasPlace_of_ok hdocument hschema hsound (Prod.ext hok rfl)
    obtain ⟨ms, rfl⟩ := hcircular.mapping
    exact (hplace.reaches hdocument ht hschema hreach rfl).not_circular hdocument ht
      (hschema.reaches hdocument hreach) hcircular

/-- A document of one schema, a property of which extends the schema that it is a property of. -/
def selfExtending : Value :=
  .mapping [(.text "A", .mapping [
    (.text "type", .text "object"),
    (.text "properties", .mapping [
      (.text "p", .mapping [(.text "allOf", .sequence [refTo "#/A",
        .mapping [(.text "properties", .mapping [(.text "q", .empty)])]])])])])]

/-- How far following goes from a schema: members of `allOf` may be references, and these lead to
schemas that follow nothing. -/
def followRank (v : Value) : Nat :=
  if v.mentions "allOf" = .ok true then 2 else if v.mentions "$ref" = .ok true then 1 else 0

theorem not_cycle_selfExtending :
    ∀ v ∈ selfExtending.nodes, ¬ TransGen (Follows selfExtending) v v :=
  not_cycle_of_rank followRank (by decide)

theorem resolve_selfExtending :
    (outcome (Schema.resolve selfExtending none (refTo "#/A") false "") {}).1 =
      .error .endless := by
  decide

/-- Following never comes back to a schema of the document, and yet a call has no end, since it
reaches a schema that is part of itself. -/
theorem endless_of_selfExtending :
    (∀ v ∈ selfExtending.nodes, ¬ TransGen (Follows selfExtending) v v) ∧
      (outcome (Schema.resolve selfExtending none (refTo "#/A") false "") {}).1 =
        .error .endless ∧
      ∃ last, Reaches selfExtending (refTo "#/A").orEmpty last ∧ Circular selfExtending last ∧
        ∃ merged, Reaches selfExtending last merged ∧ Merges merged :=
  ⟨not_cycle_selfExtending, resolve_selfExtending,
    (endless_only_where_circular not_cycle_selfExtending none _ false "").1 {}
      resolve_selfExtending⟩

/-- Not every call ends where following never comes back to a schema of the document. -/
theorem not_ends_where_following_ends :
    ¬ ∀ (document schema : Value), (∀ v ∈ document.nodes, ¬ TransGen (Follows document) v v) →
      (outcome (Schema.resolve document none schema false "") {}).1 ≠ .error .endless :=
  fun h => h selfExtending (refTo "#/A") not_cycle_selfExtending resolve_selfExtending

end OpenApiClient.Schema

import OpenApiClient.Proofs.Flattening

/-! # What a schema hands on to what it leads to

The parts of a schema are mostly values within it. The others are the schema itself with null struck
or with one of its types, a reference on its own, and the properties of the schemas that it extends.
A property that all of these inherit holds of everything that a schema leads to. -/
namespace OpenApiClient.Schema

open Relation

variable {document schema : Value} {hint : String} {outer : Layer} {P : Value → Prop}

/-- A property that a schema hands on to its parts. -/
structure PartClosed (document : Value) (P : Value → Prop) : Prop
    extends Hereditary document P where
  empty : P .empty
  stripped {ms : Members} {inner : Value} :
    P (.mapping ms) → stripNullable (.mapping ms) = .ok inner → P inner
  typed {ms : Members} {types : List Value} {t : Value} : P (.mapping ms) →
    Members.get? ms "type" = some (.sequence types) → t ∈ types →
    P (.mapping (Members.set ms (.text "type") t))
  reference {ms : Members} {target : Value} : P (.mapping ms) →
    Members.get? ms "$ref" = some target → P (.mapping [(.text "$ref", target)])

/-- The parts of an object are its properties, or the values of its map. -/
theorem objectLayer_part {ms : Members} {p : Part} (h : objectLayer (.mapping ms) hint = .ok outer)
    (hp : p ∈ outer.parts) :
    p.schema = .empty ∨
      (∃ values, Members.get? ms "additionalProperties" = some (.mapping values) ∧
        p.schema = .mapping values) ∨
      ∃ members m, Members.get? ms "properties" = some (.mapping members) ∧ m ∈ members ∧
        p.schema = m.2 := by
  obtain ⟨_, ⟨⟩, hobject | ⟨-, rfl⟩⟩ := objectLayer_ok h
  · obtain ⟨required, members, -, hmembers, -, rfl⟩ := hobject
    obtain ⟨m, hm, rfl⟩ := List.mem_map.mp hp
    exact .inr (.inr ⟨members, m, hmembers, hm, rfl⟩)
  · obtain rfl := List.mem_singleton.mp hp
    simp only [mapValues]
    split
    · rename_i values hvalues
      exact .inr (.inl ⟨values, hvalues, rfl⟩)
    · exact .inl rfl

theorem gathered_part {flat : Flat} {p : Part} (h : objectLayer flat.toObject hint = .ok outer)
    (hp : p ∈ outer.parts) : p.schema = .empty ∨ ∃ m ∈ flat.properties, p.schema = m.2 := by
  rcases objectLayer_part h hp with hempty | ⟨values, hvalues, -⟩ |
    ⟨members, m, hmembers, hm, hschema⟩
  · exact .inl hempty
  · simp [Members.get?_cons] at hvalues
  · simp only [Members.get?_cons, Scalar.text.injEq, String.reduceEq, if_false, if_true,
      Option.some.injEq, Value.mapping.injEq] at hmembers
    exact .inr ⟨m, hmembers ▸ hm, hschema⟩

/-- The members of `allOf` that count are those of its elements that are no remarks. -/
theorem extended_ok {ms : Members} {subs : List Value} (h : extended (.mapping ms) = .ok subs) :
    ∃ all elements, Members.get? ms "allOf" = some all ∧ all.elements = .ok elements ∧
      (∀ sub ∈ elements, ∃ remark, isRemark sub = .ok remark) ∧
      subs = elements.filter fun sub => isRemark sub = .ok false := by
  simp only [extended, except_bind_ok_iff, require_ok_iff, Value.mapping.injEq] at h
  obtain ⟨all, ⟨_, rfl, hall⟩, elements, helements, hsubs⟩ := h
  obtain ⟨hremarks, rfl⟩ := filterM_ok hsubs
  refine ⟨all, elements, hall, helements, fun sub hsub => ?_, List.filter_congr fun sub hsub => ?_⟩
  · obtain ⟨keep, hkeep⟩ := hremarks sub hsub
    obtain ⟨remark, hremark, -⟩ := except_bind_ok_iff.mp hkeep
    exact ⟨remark, hremark⟩
  · cases hremark : isRemark sub with
    | error fault => simp [bind, Except.bind]
    | ok remark => simp [bind, Except.bind, pure, Except.pure]

/-- Whether a schema extends two schemas or more. -/
def Merges (schema : Value) : Prop :=
  ∃ ms items, schema = .mapping ms ∧ Members.get? ms "allOf" = some (.sequence items) ∧
    2 ≤ (items.filter fun sub => isRemark sub = .ok false).length

def listsSeveral : Value → Bool
  | .mapping ms =>
    match Members.get? ms "allOf" with
    | some (.sequence items) =>
      decide (2 ≤ (items.filter fun sub => isRemark sub = .ok false).length)
    | _ => false
  | _ => false

private theorem merges_iff_listsSeveral : Merges schema ↔ listsSeveral schema = true := by
  constructor
  · rintro ⟨ms, items, rfl, hget, hlength⟩
    simpa [listsSeveral, hget] using hlength
  · intro h
    unfold listsSeveral at h
    split at h
    · split at h
      · rename_i ms _ items hget
        exact ⟨ms, items, rfl, hget, of_decide_eq_true h⟩
      · cases h
    · cases h

instance (schema : Value) : Decidable (Merges schema) :=
  decidable_of_iff _ merges_iff_listsSeveral.symm

/-- Several schemas are extended where `allOf` is a sequence, or all of them are scalars. -/
theorem merges_or_scalars {subs : List Value} (hsubs : extended schema = .ok subs)
    (hmany : ∀ only, subs ≠ [only]) (hne : subs ≠ []) :
    Merges schema ∨ ∀ sub ∈ subs, ∃ s, sub = .scalar s := by
  obtain ⟨all, hall, -⟩ := except_bind_ok_iff.mp hsubs
  obtain ⟨ms, rfl, -⟩ := require_ok_iff.mp hall
  obtain ⟨all, elements, hall, helements, -, rfl⟩ := extended_ok hsubs
  cases all with
  | sequence items =>
    obtain rfl := Except.ok.inj helements
    refine .inl ⟨ms, items, rfl, hall, ?_⟩
    match items.filter fun sub => isRemark sub = .ok false, hmany, hne with
    | [], _, hne => exact absurd rfl hne
    | [only], hmany, _ => exact absurd rfl (hmany only)
    | _ :: _ :: _, _, _ => simp
  | scalar s =>
    refine .inr fun sub hsub => ?_
    have hsub := List.mem_of_mem_filter hsub
    cases s with
    | text s =>
      obtain rfl := Except.ok.inj helements
      obtain ⟨c, -, rfl⟩ := List.mem_map.mp hsub
      exact ⟨_, rfl⟩
    | null => cases helements
    | bool b => cases helements
    | int n => cases helements
    | decimal d => cases helements
  | mapping members =>
    refine .inr fun sub hsub => ?_
    have hsub := List.mem_of_mem_filter hsub
    obtain rfl := Except.ok.inj helements
    obtain ⟨m, -, rfl⟩ := List.mem_map.mp hsub
    exact ⟨m.1, rfl⟩

theorem merges_of_endless {subs : List Value} {sub : Value} (hsubs : extended schema = .ok subs)
    (hmany : ∀ only, subs ≠ [only]) (hsub : sub ∈ subs)
    (h : flatten document sub = .error .endless) : Merges schema := by
  refine (merges_or_scalars hsubs hmany (List.ne_nil_of_mem hsub)).resolve_right fun hscalars => ?_
  obtain ⟨s, rfl⟩ := hscalars sub hsub
  exact (flatten_scalar document s).1 h

theorem merges_of_gather {subs : List Value} {flat : Flat} (hsubs : extended schema = .ok subs)
    (hmany : ∀ only, subs ≠ [only]) (hne : subs ≠ [])
    (h : gather document subs schema = .ok flat) : Merges schema := by
  refine (merges_or_scalars hsubs hmany hne).resolve_right fun hscalars => ?_
  obtain ⟨sub, hsub⟩ := List.exists_mem_of_ne_nil _ hne
  obtain ⟨s, rfl⟩ := hscalars sub hsub
  obtain ⟨gathered, hgathered, -⟩ := except_bind_ok_iff.mp h
  obtain ⟨f, g, hf⟩ := foldlM_ok_step hgathered _ hsub
  obtain ⟨w, hw, hadd⟩ := except_bind_ok_iff.mp hf
  obtain rfl := (flatten_scalar document s).2 w hw
  cases hadd

theorem PartClosed.orEmpty (hP : PartClosed document P) {v : Value} (h : P v) : P v.orEmpty := by
  unfold Value.orEmpty
  split
  · exact h
  · exact hP.empty

theorem PartClosed.extended (hP : PartClosed document P) {subs : List Value} (h : P schema)
    (hsubs : Schema.extended schema = .ok subs) : ∀ sub ∈ subs, P sub := by
  obtain ⟨all, hall, -⟩ := except_bind_ok_iff.mp hsubs
  obtain ⟨ms, rfl, -⟩ := require_ok_iff.mp hall
  obtain ⟨all, elements, hall, helements, -, rfl⟩ := extended_ok hsubs
  exact fun sub hsub => hP.elements (hP.get? h hall) helements sub (List.mem_of_mem_filter hsub)

/-- The parts of a schema have what it hands on. -/
theorem PartClosed.part (hP : PartClosed document P) (h : P schema)
    (houter : layer document schema hint = .ok outer) : ∀ p ∈ outer.parts, P p.schema := by
  obtain ⟨ms, rfl, hlayer⟩ := isLayer_of_ok houter
  intro p hp
  cases hlayer with
  | optional hnull hinner =>
    obtain rfl := List.mem_singleton.mp hp
    exact hP.stripped h hinner
  | reference hnull htarget =>
    obtain rfl := List.mem_singleton.mp hp
    exact hP.reference h htarget
  | extension honly =>
    obtain rfl := List.mem_singleton.mp hp
    exact hP.extended h honly _ (by simp)
  | merged hextended hmany hflat houter =>
    have hall := hP.gather (hP.extended h hextended) (fun _ => hP.get h) (fun _ => hP.get h) hflat
    rcases gathered_part houter hp with hempty | ⟨m, hm, hschema⟩
    · exact hempty ▸ hP.empty
    · exact hschema ▸ hall.properties m hm
  | choice hkey halternatives helements =>
    obtain ⟨sub, hsub, rfl⟩ := List.mem_map.mp hp
    exact hP.elements (hP.get? h halternatives) helements sub hsub
  | types htypes =>
    obtain ⟨_, hsub, rfl⟩ := List.mem_map.mp hp
    obtain ⟨t, ht, rfl⟩ := List.mem_map.mp hsub
    exact hP.typed h htypes ht
  | array htype =>
    obtain rfl := List.mem_singleton.mp hp
    refine hP.orEmpty ?_
    cases hitems : Members.get? ms "items" with
    | none => exact hP.scalar .null
    | some items => exact hP.get? h hitems
  | object hms houter =>
    rcases objectLayer_part houter hp with hempty | ⟨values, hvalues, hschema⟩ |
      ⟨members, m, hmembers, hm, hschema⟩
    · exact hempty ▸ hP.empty
    · exact hschema ▸ hP.get? h hvalues
    · exact hschema ▸ hP.members (hP.get? h hmembers) m hm
  | enumeration values => simp at hp
  | primitive q => simp at hp

theorem PartClosed.leads (hP : PartClosed document P) {next : Value} (h : P schema)
    (hleads : Leads document schema next) : P next := by
  cases hleads with
  | part hpart =>
    obtain ⟨hint, outer, houter, p, hp, rfl⟩ := hpart
    exact hP.orEmpty (hP.part h houter p hp)
  | target _ _ hlookup => exact hP.lookup hlookup

theorem PartClosed.reaches (hP : PartClosed document P) {last : Value} (h : P schema)
    (hreaches : Reaches document schema last) : P last := by
  induction hreaches with
  | refl => exact h
  | tail _ hstep ih => exact hP.leads ih hstep

theorem mem_elements_nodes {v x : Value} {xs : List Value} (h : v.elements = .ok xs) (hx : x ∈ xs) :
    x ∈ v.nodes ∨ ∃ s, x = .scalar s := by
  unfold Value.elements at h
  split at h
  · cases h
    exact .inl (Value.mem_nodes_sequence.mpr (.inr ⟨x, hx, x.mem_nodes_self⟩))
  · cases h
    obtain ⟨m, -, rfl⟩ := List.mem_map.mp hx
    exact .inr ⟨m.1, rfl⟩
  · cases h
    obtain ⟨c, -, rfl⟩ := List.mem_map.mp hx
    exact .inr ⟨_, rfl⟩
  · cases h

theorem held_elements {key : String} {v x : Value} {xs : List Value} (h : v.elements = .ok xs)
    (hx : x ∈ xs) : x.held key ⊆ v.held key := by
  rcases mem_elements_nodes h hx with hnode | ⟨s, rfl⟩
  · exact Value.held_subset hnode
  · simp

theorem held_typeWithoutNull {key : String} {type rest : Value}
    (h : typeWithoutNull type = some rest) : rest.held key ⊆ type.held key := by
  refine typeWithoutNull_keeps (P := fun v => v.held key ⊆ type.held key) (List.Subset.refl _) h
    ?_ ?_
  · exact fun hall t ht x hx => hall (held_elements rfl ht hx)
  · intro types _ hall x hx
    obtain ⟨t, ht, hx⟩ := Value.mem_held_sequence.mp hx
    exact hall t ht hx

/-- What stands under a key of the mappings within a schema, other than a type or an enumeration,
is found in its parts as well. -/
theorem partClosed_held {key : String} {W : List Value} (htype : key ≠ "type")
    (henum : key ≠ "enum") (hflag : key ≠ "nullable") (hW : document.held key ⊆ W) :
    PartClosed document fun v => v.held key ⊆ W where
  scalar := by simp
  items h v hv := fun _ hx => h (held_elements rfl hv hx)
  members h m hm := fun _ hx => h (Value.mem_held_mapping.mpr (.inr ⟨m, hm, hx⟩))
  document := hW
  empty := by
    intro x hx
    simp [Value.mem_held_mapping] at hx
  stripped := by
    intro ms inner h hinner x hx
    obtain ⟨stripped, rfl, hstripped⟩ := stripNullable_ok hinner
    rcases Value.mem_held_mapping.mp hx with hx | ⟨m, hm, hx⟩
    · rw [hstripped.other hflag htype henum] at hx
      exact h (Value.mem_held_mapping.mpr (.inl hx))
    · rcases hstripped.mem hm with hm | ⟨type, hget, hrest⟩ |
        ⟨values, elements, hget, helements, hm⟩
      · exact h (Value.mem_held_mapping.mpr (.inr ⟨m, hm, hx⟩))
      · refine h (Value.mem_held_mapping.mpr (.inr ⟨_, Value.mem_of_get?_eq_some hget, ?_⟩))
        exact held_typeWithoutNull hrest hx
      · refine h (Value.mem_held_mapping.mpr (.inr ⟨_, Value.mem_of_get?_eq_some hget, ?_⟩))
        obtain ⟨v, hv, hx⟩ := Value.mem_held_sequence.mp (hm ▸ hx)
        exact held_elements helements (List.mem_of_mem_filter hv) hx
  typed := by
    intro ms types t h hget ht x hx
    rcases Value.mem_held_mapping.mp hx with hx | ⟨m, hm, hx⟩
    · rw [Members.get?_set, if_neg htype] at hx
      exact h (Value.mem_held_mapping.mpr (.inl hx))
    · rcases Members.mem_set hm with hm | hm
      · exact h (Value.mem_held_mapping.mpr (.inr ⟨m, hm, hx⟩))
      · refine h (Value.mem_held_mapping.mpr (.inr ⟨_, Value.mem_of_get?_eq_some hget, ?_⟩))
        exact held_elements rfl ht (hm ▸ hx)
  reference := by
    intro ms target h hget x hx
    rcases Value.mem_held_mapping.mp hx with hself | ⟨m, hm, hx⟩
    · rw [Members.get?_cons, Members.get?_nil] at hself
      split at hself
      · rename_i hkey
        obtain rfl := Scalar.text.inj hkey
        obtain rfl := Option.some.inj hself
        exact h (Value.mem_held_mapping.mpr (.inl hget))
      · cases hself
    · obtain rfl := List.mem_singleton.mp hm
      exact h (Value.mem_held_mapping.mpr (.inr ⟨_, Value.mem_of_get?_eq_some hget, hx⟩))

/-! ## Properties of all mappings -/

def AllMappings (R : Members → Prop) (v : Value) : Prop := ∀ ms, .mapping ms ∈ v.nodes → R ms

variable {R : Members → Prop}

instance [DecidablePred R] (v : Value) : Decidable (AllMappings R v) :=
  decidable_of_iff (∀ w ∈ v.nodes, (match w with
      | .mapping ms => decide (R ms)
      | _ => true) = true)
    ⟨fun h ms hms => of_decide_eq_true (h _ hms), fun h w hw => by
      cases w with
      | mapping ms => exact decide_eq_true (h ms hw)
      | scalar s => rfl
      | sequence items => rfl⟩

namespace AllMappings

theorem node {v w : Value} (h : AllMappings R v) (hw : w ∈ v.nodes) : AllMappings R w :=
  fun ms hms => h ms (Value.nodes_subset hw hms)

theorem scalar (s : Scalar) : AllMappings R (.scalar s) := by
  intro ms hms
  cases Value.mem_nodes_scalar.mp hms

theorem sequence_iff {items : List Value} :
    AllMappings R (.sequence items) ↔ ∀ v ∈ items, AllMappings R v := by
  constructor
  · exact fun h v hv => h.node (Value.mem_nodes_sequence.mpr (.inr ⟨v, hv, v.mem_nodes_self⟩))
  · intro h ms hms
    rcases Value.mem_nodes_sequence.mp hms with hms | ⟨v, hv, hms⟩
    · cases hms
    · exact h v hv ms hms

theorem mapping_iff {ms : Members} :
    AllMappings R (.mapping ms) ↔ R ms ∧ ∀ m ∈ ms, AllMappings R m.2 := by
  constructor
  · exact fun h => ⟨h ms (Value.mem_nodes_self _), fun m hm =>
      h.node (Value.mem_nodes_mapping.mpr (.inr ⟨m, hm, m.2.mem_nodes_self⟩))⟩
  · rintro ⟨hms, hall⟩ ns hns
    rcases Value.mem_nodes_mapping.mp hns with hns | ⟨m, hm, hns⟩
    · obtain rfl := Value.mapping.inj hns
      exact hms
    · exact hall m hm ns hns

theorem typeWithoutNull {type rest : Value} (h : AllMappings R type)
    (hrest : typeWithoutNull type = some rest) : AllMappings R rest :=
  typeWithoutNull_keeps h hrest sequence_iff.mp fun _ => sequence_iff.mpr

end AllMappings

/-- What mappings keep when null is struck from them, and when one of their types is set, all
mappings in the parts of a schema have. -/
theorem partClosed_allMappings (hdocument : AllMappings R document) (hempty : R [])
    (hstripped : ∀ {ms stripped}, R ms → Stripped ms stripped → R stripped)
    (htyped : ∀ {ms types t}, R ms → Members.get? ms "type" = some (.sequence types) →
      t ∈ types → R (Members.set ms (.text "type") t))
    (hreference : ∀ target, R [(.text "$ref", target)]) : PartClosed document (AllMappings R) where
  scalar := .scalar
  items := AllMappings.sequence_iff.mp
  members h := (AllMappings.mapping_iff.mp h).2
  document := hdocument
  empty := AllMappings.mapping_iff.mpr ⟨hempty, by simp⟩
  stripped := by
    intro ms inner h hinner
    obtain ⟨hms, hall⟩ := AllMappings.mapping_iff.mp h
    obtain ⟨stripped, rfl, hstrip⟩ := stripNullable_ok hinner
    refine AllMappings.mapping_iff.mpr ⟨hstripped hms hstrip, fun m hm => ?_⟩
    rcases hstrip.mem hm with hm | ⟨type, hget, hrest⟩ | ⟨values, elements, hget, helements, hm⟩
    · exact hall m hm
    · exact (hall _ (Value.mem_of_get?_eq_some hget)).typeWithoutNull hrest
    · rw [hm]
      refine AllMappings.sequence_iff.mpr fun v hv => ?_
      rcases mem_elements_nodes helements (List.mem_of_mem_filter hv) with hnode | ⟨s, rfl⟩
      · exact (hall _ (Value.mem_of_get?_eq_some hget)).node hnode
      · exact .scalar s
  typed := by
    intro ms types t h hget ht
    obtain ⟨hms, hall⟩ := AllMappings.mapping_iff.mp h
    refine AllMappings.mapping_iff.mpr ⟨htyped hms hget ht, fun m hm => ?_⟩
    rcases Members.mem_set hm with hm | hm
    · exact hall m hm
    · exact hm ▸ AllMappings.sequence_iff.mp (hall _ (Value.mem_of_get?_eq_some hget)) t ht
  reference := by
    intro ms target h hget
    obtain ⟨-, hall⟩ := AllMappings.mapping_iff.mp h
    refine AllMappings.mapping_iff.mpr ⟨hreference target, ?_⟩
    simpa using hall _ (Value.mem_of_get?_eq_some hget)

end OpenApiClient.Schema

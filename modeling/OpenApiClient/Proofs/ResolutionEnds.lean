import OpenApiClient.Proofs.LayerEnds
import OpenApiClient.Proofs.RegistryGrowth

/-! # Where a resolution has no end

Every step of a resolution takes something off: it opens a reference that was not known, or takes up
a node of the document that is not being described yet, or goes to a part that there is less to. So
a resolution goes on without an end only where a schema is part of itself with no reference in
between, or where a schema that extends several others has no layer. -/
namespace OpenApiClient.Schema

open RegistryM Relation

variable {document schema : Value} {hint : String} {r s t : Registry} {references : List Value}

def Registry.unseen (r : Registry) (references : List Value) : Nat :=
  references.countP fun
    | .text reference => (r.refs.lookup reference).isNone
    | _ => false

theorem Registry.Extends.unseen_le (h : r.Extends s) (references : List Value) :
    s.unseen references ≤ r.unseen references := by
  refine List.countP_mono_left fun v hmem hv => ?_
  split at hv
  · rename_i reference
    cases hr : r.refs.lookup reference with
    | none => rfl
    | some id => simp [h.reference hr] at hv
  · simp at hv

/-- Opening a reference leaves one less to open. -/
theorem unseen_opened_lt {reference name : String} (hmem : .text reference ∈ references)
    (hnew : r.refs.lookup reference = none) :
    (r.opened reference name).unseen references < r.unseen references := by
  obtain ⟨before, after, rfl⟩ := List.append_of_mem hmem
  have hgrown : r.Extends (r.opened reference name) := .opened hnew
  have hbefore := hgrown.unseen_le before
  have hafter := hgrown.unseen_le after
  have hknown : (r.opened reference name).refs.lookup reference = some r.entries.size := by
    simp [Registry.opened]
  simp only [Registry.unseen, List.countP_append, List.countP_cons, hnew, hknown,
    Option.isNone_none, Option.isNone_some, if_true, Bool.false_eq_true, if_false] at *
  omega

/-- A schema that extends several others, one of which is flattened without an end. -/
def Blocked (document schema : Value) : Prop :=
  Merges schema ∧ ∃ subs, extended schema = .ok subs ∧
    ∃ sub ∈ subs, flatten document sub = .error .endless

/-- A schema that is part of itself, with no reference in between. -/
def Circular (document schema : Value) : Prop := TransGen (Within document) schema schema

/-- What is left to be done for a schema: the references that are not known, the nodes of the
document that are not among those spent, and what there is to the schema. The schemas that are being
described lead to it. -/
structure Budget (document : Value) (references : List Value) (width : Nat) (r : Registry)
    (active spent : List Value) (schema : Value) (fuel : Nat) : Prop where
  held : schema.held "$ref" ⊆ references
  bulk_lt : bulk schema < width
  spent_nodup : spent.Nodup
  spent_nodes : spent ⊆ document.nodes
  spent_active : spent ⊆ schema :: active
  path : ∀ a ∈ active, TransGen (Within document) a schema
  fuel_lt : r.unseen references * (width * width) + (document.weight - spent.length) * width +
    bulk schema < fuel

variable {width fuel : Nat} {active spent : List Value}

/-- What is fixed for a run: the references of the document are among those counted, and every node
of the document is within the width. -/
structure Bounds (document : Value) (references : List Value) (width : Nat) : Prop where
  held : document.held "$ref" ⊆ references
  weight_lt : document.weight < width

theorem Bounds.node (hbounds : Bounds document references width) {v : Value}
    (h : v ∈ document.nodes) : bulk v < width :=
  Nat.lt_of_le_of_lt (Nat.le_trans (bulk_le_weight v) (Value.weight_le_of_mem_nodes h))
    hbounds.weight_lt

theorem Bounds.partClosed (hbounds : Bounds document references width) :
    PartClosed document fun v => v.held "$ref" ⊆ references :=
  partClosed_held (by simp) (by simp) (by simp) hbounds.held

theorem Bounds.part (hbounds : Bounds document references width) {part : Value}
    (hschema : bulk schema < width) (hpart : IsPart document schema part) : bulk part < width := by
  obtain ⟨hint, outer, houter, p, hp, rfl⟩ := hpart
  rcases bulk_part houter hp with hlt | ⟨hnode, -⟩ | ⟨-, -, hle⟩
  · exact Nat.lt_trans hlt hschema
  · exact hbounds.node hnode
  · exact Nat.lt_of_le_of_lt hle hschema

theorem isReference_true {ms : Members} (hnull : isNullable (.mapping ms) = .ok false)
    (hmentions : (Value.mapping ms).mentions "$ref" = .ok true) :
    isReference (.mapping ms) = .ok true := by
  simp [isReference, hmentions, hnull, bind, Except.bind, pure, Except.pure]

/-- From a schema to a part of it: the part is within what is left, or leads back to itself. -/
theorem Budget.part (hbounds : Bounds document references width)
    (h : Budget document references width r active spent schema (fuel + 1)) {part : Value}
    (hpart : Within document schema part) (hgrown : r.Extends s) :
    Circular document part ∨
      ∃ spent, Budget document references width s (schema :: active) spent part fuel := by
  have hpath : ∀ a ∈ schema :: active, TransGen (Within document) a part := by
    intro a ha
    rcases List.mem_cons.mp ha with rfl | ha
    · exact .single hpart
    · exact (h.path a ha).tail hpart
  have hunseen := Nat.mul_le_mul_right (width * width) (hgrown.unseen_le references)
  have hreferences := hbounds.partClosed.leads h.held hpart.leads
  have hbulk := hbounds.part h.bulk_lt hpart.2
  have hfuel := h.fuel_lt
  obtain ⟨hisRef, hint, outer, houter, p, hp, rfl⟩ := hpart
  rcases bulk_part houter hp with hlt | ⟨hnode, -⟩ | ⟨hnull, hmentions, -⟩
  · refine .inr ⟨spent, hreferences, hbulk, h.spent_nodup, h.spent_nodes, ?_, hpath, by omega⟩
    exact fun v hv => List.mem_cons_of_mem _ (h.spent_active hv)
  · by_cases hmem : p.schema.orEmpty ∈ schema :: active
    · exact .inl (hpath _ hmem)
    · have hnew : (p.schema.orEmpty :: spent).Nodup :=
        List.nodup_cons.mpr ⟨fun hv => hmem (h.spent_active hv), h.spent_nodup⟩
      have hnodes : p.schema.orEmpty :: spent ⊆ document.nodes :=
        List.cons_subset.mpr ⟨hnode, h.spent_nodes⟩
      have hlength := (List.subperm_of_subset hnew hnodes).length_le
      have hweight := document.length_nodes_le
      refine .inr ⟨p.schema.orEmpty :: spent, hreferences, hbulk, hnew, hnodes,
        List.cons_subset_cons _ h.spent_active, hpath, ?_⟩
      rw [List.length_cons] at hlength ⊢
      have hspent : (document.weight - spent.length) * width =
          (document.weight - (spent.length + 1)) * width + width := by
        rw [← Nat.succ_mul]
        congr 1
        omega
      omega
  · obtain ⟨ms, rfl, -⟩ := isLayer_of_ok houter
    simp [isReference_true hnull hmentions] at hisRef

/-- From a reference to a part of its target: one reference less is left. -/
theorem Budget.target (hbounds : Bounds document references width)
    (h : Budget document references width r active spent schema (fuel + 1))
    {reference name : String} {target part : Value}
    (hreference : schema.require "$ref" = .ok (.text reference))
    (hnew : r.refs.lookup reference = none) (htarget : lookup document reference = .ok target)
    (hpart : IsPart document target part) (hgrown : (r.opened reference name).Extends s) :
    Budget document references width s [] [] part fuel := by
  obtain ⟨ms, rfl, hget⟩ := require_ok_iff.mp hreference
  have hmem : .text reference ∈ references :=
    h.held (Value.mem_held_mapping.mpr (.inl hget))
  have hnode := (lookup_ok htarget).2
  have hunseen : s.unseen references + 1 ≤ r.unseen references :=
    Nat.lt_of_le_of_lt (hgrown.unseen_le references) (unseen_opened_lt hmem hnew)
  have hbulk := hbounds.part (hbounds.node hnode) hpart
  refine ⟨?_, hbulk, .nil, by simp, by simp, by simp, ?_⟩
  · exact hbounds.partClosed.leads (hbounds.partClosed.lookup htarget) (.part hpart)
  · have hfuel := h.fuel_lt
    have hmul := Nat.mul_le_mul_right (width * width) hunseen
    have hwidth := Nat.mul_le_mul_right width (Nat.succ_le_of_lt hbounds.weight_lt)
    rw [Nat.succ_mul] at hmul hwidth
    simp only [List.length_nil, Nat.sub_zero]
    omega

/-- A schema is described without an end only if it has no layer, or if a part of it is resolved
without an end. -/
theorem describe_endless {resolve : Resolver} (hgrowing : Growing resolve)
    (h : outcome (describe document resolve schema hint) r = (.error .endless, t)) :
    Blocked document schema ∨ ∃ (part : Part) (s : Registry),
      IsPart document schema part.schema.orEmpty ∧ r.Extends s ∧
        outcome (resolve part.schema part.hint) s = (.error .endless, t) := by
  rcases describe_error h with ⟨-, hfault | hfault⟩ | ⟨outer, houter, hparts⟩
  · exact absurd hfault (Value.get_looks _ _).ends
  · exact .inl (layer_endless hfault)
  · obtain ⟨before, part, after, ids, s, hsplit, hbefore, hpart⟩ := mapM_error hparts
    rcases resolvePart_error hpart with hresolve | ⟨id, -, hfault⟩
    · have hmem : part ∈ outer.parts := by simp [hsplit]
      exact .inr ⟨part, s, ⟨hint, outer, houter, part, hmem, rfl⟩, parts_extends hgrowing hbefore,
        hresolve⟩
    · exact absurd hfault (Value.get_looks _ _).ends

/-- A schema that is resolved without an end leads to one that is part of itself, or that extends
a schema which is flattened without an end. -/
theorem resolveWith_endless (hbounds : Bounds document references width)
    {active : List (Value × Nat)}
    (h : outcome (resolveWith document fuel active schema hint) r = (.error .endless, t))
    (hbudget : Budget document references width r (active.map Prod.fst) spent schema.orEmpty
      fuel) :
    ∃ last, Reaches document schema.orEmpty last ∧
      (Blocked document last ∨ Circular document last) := by
  -- The depth is more than what is left to be done, so that it does not run out first.
  induction fuel generalizing schema hint r t active spent with
  | zero => exact absurd hbudget.fuel_lt (Nat.not_lt_zero _)
  | succ fuel ih =>
    rcases resolveWith_error h with ⟨-, hfault⟩ | ⟨reference, hisRef, hreference, href⟩ |
      ⟨hisRef, key, -, -, ⟨hmem, -, -⟩ | ⟨-, hdescribe⟩ | ⟨e, -, -, hname⟩⟩
    · rcases hfault with hfault | ⟨-, hfault⟩ | ⟨-, hfault⟩
      · exact absurd hfault (isReference_looks _).ends
      · exact absurd hfault (Value.require_looks _ _).ends
      · exact absurd hfault (structuralKey_looks _).ends
    · rcases resolveRef_error href with ⟨-, hfault | ⟨text, -, hfault⟩⟩ |
        ⟨text, target, rfl, hnew, htarget, hdescribe⟩
      · exact absurd hfault (Value.asText_looks _).ends
      · exact absurd hfault (lookup_looks _ _).ends
      have hstep : Leads document schema.orEmpty target := .target hisRef hreference htarget
      rcases describe_endless (resolveWith_growing document fuel []) hdescribe with hblocked |
        ⟨part, s, hpart, hgrown, hresolve⟩
      · exact ⟨target, .single hstep, .inl hblocked⟩
      · obtain ⟨last, hreach, hlast⟩ := ih hresolve
          (hbudget.target hbounds hreference hnew htarget hpart hgrown)
        exact ⟨last, .head hstep (.head (.part hpart) hreach), hlast⟩
    -- The schema is met again while it is described, so the path to it comes back to it.
    · exact ⟨_, .refl, .inr (hbudget.path _ (List.mem_map_of_mem hmem))⟩
    · rcases describe_endless (resolveWith_growing document fuel _) hdescribe with hblocked |
        ⟨part, s, hpart, hgrown, hresolve⟩
      · exact ⟨_, .refl, .inl hblocked⟩
      · have hwithin : Within document schema.orEmpty part.schema.orEmpty := ⟨hisRef, hpart⟩
        rcases hbudget.part hbounds hwithin hgrown with hcircular | ⟨spent, hpartBudget⟩
        · exact ⟨_, .single hwithin.leads, .inr hcircular⟩
        · obtain ⟨last, hreach, hlast⟩ := ih hresolve hpartBudget
          exact ⟨last, .head hwithin.leads hreach, hlast⟩
    · exact absurd hname (modelName_looks _ _ _).ends

private theorem unseen_le_weight (r : Registry) (document schema : Value) :
    r.unseen (document.held "$ref" ++ schema.held "$ref") ≤ document.weight + schema.weight := by
  have hdocument := document.length_held_le "$ref"
  have hschema := schema.length_held_le "$ref"
  refine Nat.le_trans List.countP_le_length ?_
  rw [List.length_append]
  omega

private theorem bounds_top (document schema : Value) :
    Bounds document (document.held "$ref" ++ schema.held "$ref")
      (document.weight + schema.weight + 2) where
  held := List.subset_append_left _ _
  weight_lt := by omega

/-- The depth of a resolution is enough for what is left at its start. -/
theorem fuel_lt_cube {d w count size : Nat} (hcount : count ≤ d + w) (hsize : size < d + w + 2) :
    count * ((d + w + 2) * (d + w + 2)) + d * (d + w + 2) + size < Nat.pow (d + w + 2) 3 := by
  have hpow : Nat.pow (d + w + 2) 3 =
      (d + w) * ((d + w + 2) * (d + w + 2)) + 2 * ((d + w + 2) * (d + w + 2)) := by
    rw [← Nat.add_mul]
    simp only [Nat.pow_eq, Nat.pow_succ, Nat.pow_zero, Nat.one_mul, Nat.mul_assoc]
  have hreferences := Nat.mul_le_mul_right ((d + w + 2) * (d + w + 2)) hcount
  have hnodes : d * (d + w + 2) + (d + w + 2) ≤ (d + w + 2) * (d + w + 2) := by
    rw [← Nat.succ_mul]
    exact Nat.mul_le_mul_right _ (by omega)
  omega

/-- At the start of a call everything is left, and the depth is enough for it. -/
theorem Budget.top {part : Value} (r : Registry)
    (hheld : part.held "$ref" ⊆ document.held "$ref" ++ schema.held "$ref")
    (hbulk : bulk part < document.weight + schema.weight + 2) :
    Budget document (document.held "$ref" ++ schema.held "$ref")
      (document.weight + schema.weight + 2) r [] [] part (resolveDepth document schema) where
  held := hheld
  bulk_lt := hbulk
  spent_nodup := .nil
  spent_nodes := by simp
  spent_active := by simp
  path := by simp
  fuel_lt := fuel_lt_cube (unseen_le_weight r document schema) hbulk

theorem wrap_ok (nullable : Bool) (id : TypeId) (r : Registry) :
    ∃ wrapped, (outcome (wrap nullable id) r).1 = .ok wrapped := by
  cases nullable with
  | false => exact ⟨id, rfl⟩
  | true =>
    rcases outcome_optional id r with ⟨_, -, h⟩ | ⟨-, ⟨_, -, h⟩ | ⟨-, h⟩⟩
    · exact ⟨_, congrArg Prod.fst h⟩
    · exact ⟨_, congrArg Prod.fst h⟩
    · exact ⟨_, congrArg Prod.fst h⟩

/-- A type that admits null besides fails only where the type itself does. -/
theorem outcome_wrap_error {m : RegistryM TypeId} {nullable : Bool} {fault : Fault}
    (h : (outcome (m >>= wrap nullable) r).1 = .error fault) :
    ∃ s, outcome m r = (.error fault, s) := by
  rw [outcome_bind] at h
  cases hm : outcome m r with
  | mk x s =>
    cases x with
    | error other => simpa [hm] using h
    | ok id =>
      obtain ⟨wrapped, hwrapped⟩ := wrap_ok nullable id s
      simp [hm, hwrapped] at h

/-- A call without an end leads to a schema that is part of itself, or that extends a schema which
is flattened without an end. -/
theorem resolve_endless {preferred : Option String} {nullable : Bool}
    (h : (outcome (Schema.resolve document preferred schema nullable hint) r).1 =
      .error .endless) :
    ∃ last, Reaches document schema.orEmpty last ∧
      (Blocked document last ∨ Circular document last) := by
  have hbounds := bounds_top document schema.orEmpty
  have hheld : schema.orEmpty.held "$ref" ⊆
      document.held "$ref" ++ schema.orEmpty.held "$ref" := List.subset_append_right _ _
  have hbulk : bulk schema.orEmpty < document.weight + schema.orEmpty.weight + 2 := by
    have := bulk_le_weight schema.orEmpty
    omega
  rcases resolve_cases document preferred schema nullable hint with ⟨-, hcase⟩ |
    ⟨text, -, -, hcase⟩
  · rw [hcase] at h
    obtain ⟨s, hs⟩ := outcome_wrap_error h
    have hends := resolveWith_endless hbounds hs (by
      rw [Value.orEmpty_orEmpty]
      exact Budget.top r hheld hbulk)
    rwa [Value.orEmpty_orEmpty] at hends
  · rw [hcase] at h
    obtain ⟨s, hs⟩ := outcome_wrap_error h
    rw [outcome_claim_register] at hs
    cases hbody : outcome (describe document
        (resolveWith document (resolveDepth document schema.orEmpty) []) schema.orEmpty
        (r.nameFor text)) (r.named (r.nameFor text)) with
    | mk x u =>
      cases x with
      | ok e => simp [hbody] at hs
      | error fault =>
        simp only [hbody, Prod.mk.injEq, Except.error.injEq] at hs
        obtain ⟨rfl, rfl⟩ := hs
        rcases describe_endless (resolveWith_growing document _ []) hbody with hblocked |
          ⟨part, v, hpart, -, hresolve⟩
        · exact ⟨_, .refl, .inl hblocked⟩
        · obtain ⟨last, hreach, hlast⟩ := resolveWith_endless hbounds hresolve
            (Budget.top v (hbounds.partClosed.leads hheld (.part hpart))
              (hbounds.part hbulk hpart))
          exact ⟨last, .head (.part hpart) hreach, hlast⟩

/-- Steps to parts take something off, until a schema is met that extends several others. -/
theorem bulk_lt_of_transGen {part : Value} (h : TransGen (Within document) schema part) :
    bulk part < bulk schema ∨ ∃ last, Reaches document schema last ∧ Merges last := by
  have hstep : ∀ {a b}, Within document a b → bulk b < bulk a ∨ Merges a := by
    rintro a b ⟨hisRef, hint, outer, houter, p, hp, rfl⟩
    rcases bulk_part houter hp with hlt | ⟨-, hmerges⟩ | ⟨hnull, hmentions, -⟩
    · exact .inl hlt
    · exact .inr hmerges
    · obtain ⟨ms, rfl, -⟩ := isLayer_of_ok houter
      simp [isReference_true hnull hmentions] at hisRef
  induction h with
  | single hab => exact (hstep hab).imp_right fun hmerges => ⟨_, .refl, hmerges⟩
  | tail hab hbc ih =>
    rcases ih with hlt | hmerges
    · rcases hstep hbc with hlt' | hmerges
      · exact .inl (Nat.lt_trans hlt' hlt)
      · exact .inr ⟨_, hab.to_reflTransGen.lift id fun _ _ hw => hw.leads, hmerges⟩
    · exact .inr hmerges

/-- What a schema reaches extends several others only if it or the document holds a schema that
does. -/
theorem merges_of_reaches {last : Value} (h : Reaches document schema.orEmpty last)
    (hmerges : Merges last) : ∃ v ∈ document.nodes ++ schema.nodes, Merges v := by
  have hclosed : PartClosed document fun v =>
      v.held "allOf" ⊆ document.held "allOf" ++ schema.held "allOf" :=
    partClosed_held (by simp) (by simp) (by simp) (List.subset_append_left _ _)
  have hheld := hclosed.reaches (hclosed.orEmpty (List.subset_append_right _ _)) h
  obtain ⟨ms, items, rfl, hget, hlength⟩ := hmerges
  rcases List.mem_append.mp (hheld (Value.mem_held_mapping.mpr (.inl hget))) with hmem | hmem
  · obtain ⟨found, hnode, hfound⟩ := Value.mem_held.mp hmem
    exact ⟨_, List.mem_append_left _ hnode, found, items, rfl, hfound, hlength⟩
  · obtain ⟨found, hnode, hfound⟩ := Value.mem_held.mp hmem
    exact ⟨_, List.mem_append_right _ hnode, found, items, rfl, hfound, hlength⟩

/-- A call has an end if no schema in the document or in the schema at hand extends two schemas or
more. -/
theorem resolve_ends_of_no_merge (document schema : Value)
    (h : ∀ v ∈ document.nodes ++ schema.nodes, ¬ Merges v) (preferred : Option String)
    (nullable : Bool) (hint : String) (r : Registry) :
    (outcome (Schema.resolve document preferred schema nullable hint) r).1 ≠ .error .endless := by
  intro hendless
  obtain ⟨last, hreach, hblocked | hcircular⟩ := resolve_endless hendless
  · obtain ⟨v, hv, hmerges⟩ := merges_of_reaches hreach hblocked.1
    exact h v hv hmerges
  · rcases bulk_lt_of_transGen hcircular with hlt | ⟨other, hother, hmerges⟩
    · exact Nat.lt_irrefl _ hlt
    · obtain ⟨v, hv, hmerges⟩ := merges_of_reaches (hreach.trans hother) hmerges
      exact h v hv hmerges

end OpenApiClient.Schema

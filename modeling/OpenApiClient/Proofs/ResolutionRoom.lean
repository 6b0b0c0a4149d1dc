import OpenApiClient.Proofs.FreeResolution
import OpenApiClient.Proofs.ResolutionEnds
import OpenApiClient.Proofs.SchemaForms

/-! # The room that a resolution needs

Resolutions stand inside one another, and a stack that has no more room for one ends them all. Where
no schema extends several others the document bounds the room that they need, and a stack with that much
room makes no difference. The room is not bounded by anything else: schemas that stand inside one another
take up as much of it as there are. -/
namespace OpenApiClient.Schema

open RegistryM

variable {document schema : Value} {room more : Nat} {r : Registry}

/-- More room changes nothing for a resolution that had enough. -/
theorem resolveWithin_repeats (hle : room ≤ more) (document : Value) (preferred : Option String)
    (schema : Value) (nullable : Bool) (hint : String) (r : Registry) :
    Repeats r (resolveWithin room document preferred schema nullable hint)
      (resolveWithin more document preferred schema nullable hint) := by
  have hdeeper : ∀ v hint r, Repeats r (resolveWith document room [] v hint)
      (resolveWith document more [] v hint) := by
    intro v hint r
    rw [resolveWith_nil_eq_freely, resolveWith_nil_eq_freely]
    exact resolveFreely_repeats hle v hint r
  by_cases h : preferred.getD "" = ""
  · rw [resolveWithin_anonymous _ _ h, resolveWithin_anonymous _ _ h]
    exact (hdeeper _ hint r).bind fun _ _ => .refl _
  · cases preferred with
    | none => exact absurd rfl h
    | some text =>
      have htext : text ≠ "" := h
      rw [resolveWithin_named _ _ htext, resolveWithin_named _ _ htext]
      refine Repeats.bind (.bind (.refl _) fun name s => ?_) fun _ _ => .refl _
      exact register_repeats (describe_repeats hdeeper _ name) name s

/-- If no schema in the document or in the schema at hand extends two schemas or more, resolutions stand
inside one another no deeper than the document and the schema are large, whatever its references do. On
every stack that has room for so many a call ends from every state of the registry, with a type or with a
fault that is not for want of room, and the room that is left changes nothing. -/
theorem ends_with_room (document schema : Value)
    (h : ∀ v ∈ document.nodes ++ schema.nodes, ¬ Merges v)
    (hroom : (document.weight + schema.orEmpty.weight + 2) ^ 3 ≤ room) (preferred : Option String)
    (nullable : Bool) (hint : String) (r : Registry) :
    (outcome (resolveWithin room document preferred schema nullable hint) r).1 ≠ .error .endless ∧
      outcome (resolveWithin room document preferred schema nullable hint) r =
        outcome (Schema.resolve document preferred schema nullable hint) r := by
  have hends := resolve_ends_of_no_merge document schema h preferred nullable hint r
  have hsame := resolveWithin_repeats hroom document preferred schema nullable hint r hends
  exact ⟨hsame ▸ hends, hsame⟩

/-- A document whose one schema comes back to itself in every way but by extending several
others. -/
def tangledDocument : Value :=
  .mapping [(.text "Node", .mapping [
    (.text "type", .sequence [.text "object", .text "array", .text "null"]),
    (.text "properties", .mapping [
      (.text "next", refTo "#/Node"),
      (.text "same", .mapping [(.text "allOf", .sequence [refTo "#/Node"]),
        (.text "nullable", .bool true)]),
      (.text "either", .mapping [(.text "oneOf", .sequence [refTo "#/Node", .mapping [
        (.text "additionalProperties", refTo "#/Node")]])])]),
    (.text "items", refTo "#/Node")])]

theorem ends_with_room_tangled :
    (∀ v ∈ tangledDocument.nodes ++ (refTo "#/Node").nodes, ¬ Merges v) ∧
      (tangledDocument.weight + (refTo "#/Node").orEmpty.weight + 2) ^ 3 ≤ 1000000 ∧
      (outcome (resolveWithin 1000000 tangledDocument none (refTo "#/Node") true "") {}).1 ≠
        .error .endless :=
  have h : ∀ v ∈ tangledDocument.nodes ++ (refTo "#/Node").nodes, ¬ Merges v := by decide
  have hroom : (tangledDocument.weight + (refTo "#/Node").orEmpty.weight + 2) ^ 3 ≤ 1000000 := by
    decide
  ⟨h, hroom, (ends_with_room _ _ h hroom none true "" {}).1⟩

/-! ## Schemas that leave no room -/

def nestedMaps : Nat → Value
  | 0 => .empty
  | depth + 1 => .mapping [(.text "additionalProperties", nestedMaps depth)]

private theorem exists_mapping_nestedMaps (depth : Nat) : ∃ ms, nestedMaps depth = .mapping ms := by
  cases depth <;> exact ⟨_, rfl⟩

private theorem orEmpty_nestedMaps (depth : Nat) : (nestedMaps depth).orEmpty = nestedMaps depth := by
  obtain ⟨ms, hms⟩ := exists_mapping_nestedMaps depth
  rw [hms, Value.orEmpty_mapping]

private theorem isJson_nestedMaps (depth : Nat) : (nestedMaps depth).IsJson := by
  induction depth with
  | zero => decide
  | succ depth ih => exact Value.isJson_mapping_iff.mpr ⟨by simp, by simp, by simpa using ih⟩

private theorem not_merges_nestedMaps (depth : Nat) : ∀ v ∈ (nestedMaps depth).nodes, ¬ Merges v := by
  induction depth with
  | zero => decide
  | succ depth ih =>
    intro v hv
    rcases Value.mem_nodes_mapping.mp hv with rfl | ⟨m, hm, hv⟩
    · rintro ⟨ms, items, hms, hall, -⟩
      obtain rfl := Value.mapping.inj hms
      cases hall
    · obtain rfl := List.mem_singleton.mp hm
      exact ih v hv

theorem delaysIn_nestedMaps (document : Value) (depth : Nat) :
    DelaysIn document {} (nestedMaps (depth + 1)) (nestedMaps depth) := by
  obtain ⟨form, hform, -⟩ := form_of_isJson false (isJson_nestedMaps (depth + 1))
  have hkey : structuralKey (nestedMaps (depth + 1)) = .ok form.written := by
    rw [structuralKey_eq, hform]
    rfl
  obtain ⟨ms, hms⟩ := exists_mapping_nestedMaps depth
  have hlayer : layer document (nestedMaps (depth + 1)) "" =
      .ok ⟨.map, [⟨nestedMaps depth, " value", false⟩]⟩ := by
    rw [nestedMaps, hms]
    rfl
  have hbefore : ∀ hint, Hits {} (fun fuel => (([] : List Part).map (Part.prefixed hint)).mapM
      (resolvePart (resolveFreely document fuel))) [] := fun _ _ => .inl rfl
  have hdelays := delaysIn_part rfl hkey rfl rfl hlayer rfl hbefore
  rwa [orEmpty_nestedMaps] at hdelays

/-- Maps inside one another need room for more resolutions than there are of them. -/
theorem fails_nestedMaps (document : Value) {depth : Nat} (hle : room ≤ depth) :
    Fails document {} room (nestedMaps depth) := by
  induction room generalizing depth with
  | zero => exact fun _ _ _ => rfl
  | succ room ih =>
    obtain ⟨depth, rfl⟩ := Nat.exists_eq_succ_of_ne_zero (Nat.ne_zero_of_lt hle)
    exact delaysIn_nestedMaps document depth room (ih (Nat.le_of_succ_le_succ hle))

/-- The room that the interpreter has by default is not enough for seven hundred maps inside one
another. -/
theorem not_ends_with_default_room : ¬ ∀ (document schema : Value),
    (∀ v ∈ document.nodes ++ schema.nodes, ¬ Merges v) →
    ∀ (preferred : Option String) (nullable : Bool) (hint : String) (r : Registry),
      (outcome (resolveWithin defaultRoom document preferred schema nullable hint) r).1 ≠
        .error .endless := by
  intro h
  have hmerges : ∀ v ∈ Value.empty.nodes ++ (nestedMaps 700).nodes, ¬ Merges v := by
    intro v hv
    rcases List.mem_append.mp hv with hv | hv
    · exact not_merges_nestedMaps 0 v hv
    · exact not_merges_nestedMaps 700 v hv
  refine h .empty (nestedMaps 700) hmerges none false "" {} ?_
  have hfails := fails_nestedMaps .empty (show defaultRoom ≤ 700 by decide)
  rw [resolveWithin_anonymous _ _ rfl, resolveWith_nil_eq_freely, orEmpty_nestedMaps, outcome_bind,
    hfails _ _ (orEmpty_nestedMaps 700)]

end OpenApiClient.Schema

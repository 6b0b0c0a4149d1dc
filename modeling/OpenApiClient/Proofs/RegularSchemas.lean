import OpenApiClient.Proofs.PartClosure
import OpenApiClient.Proofs.WrittenValues

/-! # Regular schemas in JSON

From a schema in JSON a document in JSON leads to schemas in JSON alone. A schema is regular when
its enumeration and its required names are sequences and its properties are not. -/
namespace OpenApiClient

def Value.isSequence : Value → Bool
  | .sequence _ => true
  | _ => false

theorem Value.isSequence_iff {v : Value} : v.isSequence ↔ ∃ items, v = .sequence items := by
  cases v <;> simp [isSequence]

namespace Members

private theorem isJson_erase {ms : Members} (h : (Value.mapping ms).IsJson) (key : String) :
    (Value.mapping (erase ms key)).IsJson := by
  obtain ⟨htext, hnodup, hms⟩ := Value.isJson_mapping_iff.mp h
  have hsublist : (erase ms key).Sublist ms := List.filter_sublist
  exact Value.isJson_mapping_iff.mpr ⟨fun m hm => htext m (hsublist.subset hm),
    (hsublist.map _).nodup hnodup, fun m hm => hms m (hsublist.subset hm)⟩

theorem isJson_set {ms : Members} {v : Value} (h : (Value.mapping ms).IsJson) (key : String)
    (hv : v.IsJson) : (Value.mapping (set ms (.text key) v)).IsJson := by
  obtain ⟨htext, hnodup, hms⟩ := Value.isJson_mapping_iff.mp h
  unfold set
  split
  · have hkeys : (ms.map fun m => if m.1.sameKey (.text key) then (m.1, v) else m).map Prod.fst =
        ms.map Prod.fst := by
      rw [List.map_map]
      refine List.map_congr_left fun m _ => ?_
      by_cases hm : m.1.sameKey (.text key) <;> simp [hm]
    refine Value.isJson_mapping_iff.mpr ⟨fun m hm => ?_, hkeys ▸ hnodup, fun m hm => ?_⟩
    · obtain ⟨n, hn, rfl⟩ := List.mem_map.mp hm
      split
      · exact htext n hn
      · exact htext n hn
    · obtain ⟨n, hn, rfl⟩ := List.mem_map.mp hm
      split
      · exact hv
      · exact hms n hn
  · rename_i hany
    refine Value.isJson_mapping_iff.mpr ⟨?_, ?_, ?_⟩
    · intro m hm
      rcases List.mem_append.mp hm with hm | hm
      · exact htext m hm
      · exact ⟨key, by rw [List.mem_singleton.mp hm]⟩
    · rw [List.map_append, List.map_singleton]
      refine List.nodup_append.mpr ⟨hnodup, by simp, ?_⟩
      intro k hk l hl
      obtain rfl := List.mem_singleton.mp hl
      rintro rfl
      obtain ⟨m, hm, hmk⟩ := List.mem_map.mp hk
      exact hany (List.any_eq_true.mpr ⟨m, hm, by rw [hmk, Scalar.sameKey_self]⟩)
    · intro m hm
      rcases List.mem_append.mp hm with hm | hm
      · exact hms m hm
      · rw [List.mem_singleton.mp hm]
        exact hv

theorem isJson_setAll {ms more : Members} (h : (Value.mapping ms).IsJson)
    (htext : ∀ m ∈ more, ∃ key, m.1 = .text key) (hmore : ∀ m ∈ more, m.2.IsJson) :
    (Value.mapping (setAll ms more)).IsJson := by
  unfold setAll
  induction more generalizing ms with
  | nil => exact h
  | cons m rest ih =>
    obtain ⟨⟨key, hkey⟩, htext⟩ := List.forall_mem_cons.mp htext
    obtain ⟨hm, hmore⟩ := List.forall_mem_cons.mp hmore
    rw [List.foldl_cons, hkey]
    exact ih (isJson_set h key hm) htext hmore

end Members

namespace Schema

open Relation

variable {document schema : Value}

private theorem isJson_filter {items : List Value} (h : (Value.sequence items).IsJson)
    (p : Value → Bool) :
    (Value.sequence (items.filter p)).IsJson :=
  Value.isJson_sequence_iff.mpr fun v hv =>
    Value.isJson_sequence_iff.mp h v (List.mem_of_mem_filter hv)

theorem isJson_elements {v : Value} {items : List Value} (h : v.IsJson)
    (hitems : v.elements = .ok items) : (Value.sequence items).IsJson := by
  refine Value.isJson_sequence_iff.mpr fun x hx => ?_
  rcases mem_elements_nodes hitems hx with hnode | ⟨s, rfl⟩
  · exact h.node hnode
  · exact Value.isJson_scalar s

private theorem isJson_typeWithoutNull {type rest : Value} (h : type.IsJson)
    (hrest : typeWithoutNull type = some rest) : rest.IsJson :=
  typeWithoutNull_keeps h hrest Value.isJson_sequence_iff.mp
    fun _ => Value.isJson_sequence_iff.mpr

theorem isJson_stripNullable {ms : Members} {inner : Value} (h : (Value.mapping ms).IsJson)
    (hinner : stripNullable (.mapping ms) = .ok inner) : inner.IsJson := by
  have herased := Members.isJson_erase h "nullable"
  have htypes : (Value.mapping (stripTypes (Members.erase ms "nullable"))).IsJson := by
    rcases stripTypes_cases (Members.erase ms "nullable") with ⟨-, h⟩ |
      ⟨type, rest, htype, hrest, h⟩ | ⟨-, h⟩
    · exact h ▸ Members.isJson_erase herased "type"
    · rw [h]
      have hnode := Value.isJson_mapping_iff.mp herased
      exact Members.isJson_set herased "type" (isJson_typeWithoutNull
        (hnode.2.2 _ (Value.mem_of_get?_eq_some htype)) hrest)
    · rw [h]
      exact herased
  simp only [stripNullable, except_bind_ok_iff, members_ok_iff, Value.mapping.injEq] at hinner
  obtain ⟨_, rfl, hinner⟩ := hinner
  split at hinner
  · rename_i values hvalues
    simp only [except_bind_ok_iff, except_pure_ok_iff] at hinner
    obtain ⟨elements, helements, rfl⟩ := hinner
    have hnode := Value.isJson_mapping_iff.mp htypes
    exact Members.isJson_set htypes "enum" (isJson_filter (isJson_elements
      (hnode.2.2 _ (Value.mem_of_get?_eq_some hvalues)) helements) _)
  · simp only [except_pure_ok_iff] at hinner
    exact hinner ▸ htypes

theorem partClosed_isJson (h : document.IsJson) : PartClosed document Value.IsJson where
  scalar := Value.isJson_scalar
  items := Value.isJson_sequence_iff.mp
  members h := (Value.isJson_mapping_iff.mp h).2.2
  document := h
  empty := Value.isJson_mapping_iff.mpr (by simp)
  stripped := isJson_stripNullable
  typed h hget ht := Members.isJson_set h "type" (Value.isJson_sequence_iff.mp
    ((Value.isJson_mapping_iff.mp h).2.2 _ (Value.mem_of_get?_eq_some hget)) _ ht)
  reference h hget := Value.isJson_mapping_iff.mpr (by
    simpa using (Value.isJson_mapping_iff.mp h).2.2 _ (Value.mem_of_get?_eq_some hget))

/-- Members of a schema with sequences as its enumeration and its required names, and with
properties that are no sequence. -/
structure Regular (ms : Members) : Prop where
  enum {v : Value} : Members.get? ms "enum" = some v → v.isSequence
  required {v : Value} : Members.get? ms "required" = some v → v.isSequence
  properties {v : Value} : Members.get? ms "properties" = some v → v.isSequence → v = .sequence []

instance (ms : Members) : Decidable (Regular ms) :=
  decidable_of_iff ((Members.get? ms "enum").all Value.isSequence ∧
      (Members.get? ms "required").all Value.isSequence ∧
      (Members.get? ms "properties").all fun v => !v.isSequence || v = .sequence [])
    ⟨fun ⟨henum, hrequired, hproperties⟩ => by
      constructor
      · intro v hv
        simpa [hv] using henum
      · intro v hv
        simpa [hv] using hrequired
      · intro v hv hsequence
        simpa [hv, hsequence] using hproperties,
    fun h => by
      simp only [Option.all_eq_true]
      refine ⟨fun v hv => h.enum hv, fun v hv => h.required hv, fun v hv => ?_⟩
      cases hsequence : v.isSequence with
      | false => rfl
      | true => simp [h.properties hv hsequence]⟩

/-- What is met when a schema is resolved: what it leads to and what flattening follows. -/
abbrev Meets (document : Value) : Value → Value → Prop :=
  ReflTransGen fun v w => Leads document v w ∨ Follows document v w

/-- A schema in JSON from which only regular schemas are met. -/
structure Tame (document schema : Value) : Prop where
  json : schema.IsJson
  regular {ms : Members} : Meets document schema (.mapping ms) → Regular ms

namespace Tame

variable {next : Value}

theorem leads (hdocument : document.IsJson) (h : Tame document schema)
    (hleads : Leads document schema next) : Tame document next where
  json := (partClosed_isJson hdocument).leads h.json hleads
  regular hmeets := h.regular (.head (.inl hleads) hmeets)

theorem reaches (hdocument : document.IsJson) (h : Tame document schema)
    (hreach : Reaches document schema next) : Tame document next := by
  induction hreach with
  | refl => exact h
  | tail _ hstep ih => exact ih.leads hdocument hstep

private theorem isJson_follows (hdocument : document.IsJson) (h : schema.IsJson)
    (hfollows : Follows document schema next) : next.IsJson := by
  cases hfollows with
  | target _ hlookup => exact (partClosed_isJson hdocument).lookup hlookup
  | member hall hsubs hmem =>
    obtain ⟨ms, rfl, hget⟩ := require_ok_iff.mp hall
    have hvalue := (Value.isJson_mapping_iff.mp h).2.2 _ (Value.mem_of_get?_eq_some hget)
    exact Value.isJson_sequence_iff.mp (isJson_elements hvalue hsubs) _ hmem

theorem follows (hdocument : document.IsJson) (h : Tame document schema)
    (hfollows : Follows document schema next) : Tame document next where
  json := isJson_follows hdocument h.json hfollows
  regular hmeets := h.regular (.head (.inr hfollows) hmeets)

theorem self {ms : Members} (h : Tame document (.mapping ms)) : Regular ms := h.regular .refl

end Tame

def AllRegular (v : Value) : Prop := ∀ ms, .mapping ms ∈ v.nodes → Regular ms

instance (v : Value) : Decidable (AllRegular v) :=
  decidable_of_iff (∀ w ∈ v.nodes, (match w with
      | .mapping ms => decide (Regular ms)
      | _ => true) = true)
    ⟨fun h ms hms => of_decide_eq_true (h _ hms), fun h w hw => by
      cases w with
      | mapping ms => exact decide_eq_true (h ms hw)
      | scalar s => rfl
      | sequence items => rfl⟩

/-- Where all mappings are regular, all parts of a schema are so. -/
theorem partClosed_allRegular (h : AllRegular document) : PartClosed document AllRegular :=
  partClosed_allMappings h ⟨by simp, by simp, by simp⟩
    (fun {ms stripped} hms hstripped => by
      constructor
      · intro v hv
        cases hvalues : Members.get? ms "enum" with
        | none => simp [hstripped.enum_none hvalues] at hv
        | some values =>
          obtain ⟨elements, -, henum⟩ := hstripped.enum_some hvalues
          obtain rfl := Option.some.inj (henum.symm.trans hv)
          rfl
      · intro v hv
        rw [hstripped.other (by simp) (by simp) (by simp)] at hv
        exact hms.required hv
      · intro v hv
        rw [hstripped.other (by simp) (by simp) (by simp)] at hv
        exact hms.properties hv)
    (fun hms _ _ => ⟨fun hv => hms.enum (by simpa [Members.get?_set] using hv),
      fun hv => hms.required (by simpa [Members.get?_set] using hv),
      fun hv => hms.properties (by simpa [Members.get?_set] using hv)⟩)
    (fun _ => ⟨by simp [Members.get?_cons], by simp [Members.get?_cons],
      by simp [Members.get?_cons]⟩)

/-- A schema in JSON all of whose mappings are regular is tame in a document of that kind. -/
theorem tame_of_allRegular (hdocument : AllRegular document) (hschema : AllRegular schema)
    (hjson : schema.IsJson) : Tame document schema where
  json := hjson
  regular := by
    have hclosed := partClosed_allRegular hdocument
    have hmeets : ∀ {last}, Meets document schema last → AllRegular last := by
      intro last h
      induction h with
      | refl => exact hschema
      | tail _ hstep ih =>
        rcases hstep with hleads | hfollows
        · exact hclosed.leads ih hleads
        · cases hfollows with
          | target _ hlookup => exact hclosed.lookup hlookup
          | member hall hsubs hmem =>
            obtain ⟨ms, rfl, hget⟩ := require_ok_iff.mp hall
            exact hclosed.elements (hclosed.get? ih hget) hsubs _ hmem
    intro ms h
    exact (AllMappings.mapping_iff.mp (hmeets h)).1

end Schema

end OpenApiClient

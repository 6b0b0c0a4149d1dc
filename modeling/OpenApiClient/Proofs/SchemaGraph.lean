import OpenApiClient.Proofs.LayerCases
import OpenApiClient.Proofs.ValueNodes
import OpenApiClient.Schema.Resolve
import Mathlib.Logic.Relation

/-! # How schemas lead to one another

A schema leads to its parts, and a reference to its target. A property that a document hands down
to everything within it holds of all schemas that one with the property leads to. -/
namespace OpenApiClient.Schema

open Relation

variable {document schema : Value} {hint : String} {outer : Layer} {P : Value → Prop}

def refTo (reference : String) : Value := .mapping [(.text "$ref", .text reference)]

/-- A part of the layer of a schema. -/
def IsPart (document schema part : Value) : Prop :=
  ∃ hint outer, layer document schema hint = .ok outer ∧
    ∃ p ∈ outer.parts, part = p.schema.orEmpty

/-- What a schema leads to: its parts, and the target when it is a reference. -/
inductive Leads (document : Value) (schema : Value) : Value → Prop
  | part {part : Value} (h : IsPart document schema part) : Leads document schema part
  | target {reference : String} {target : Value} (hisRef : isReference schema = .ok true)
      (hreference : schema.require "$ref" = .ok (.text reference))
      (h : lookup document reference = .ok target) : Leads document schema target

abbrev Reaches (document : Value) : Value → Value → Prop := ReflTransGen (Leads document)

/-- A part of a schema that is no reference. -/
def Within (document schema part : Value) : Prop :=
  isReference schema = .ok false ∧ IsPart document schema part

theorem Within.leads {part : Value} (h : Within document schema part) :
    Leads document schema part := .part h.2

/-- What flattening follows: a reference, or a member of `allOf`. -/
inductive Follows (document : Value) (schema : Value) : Value → Prop
  | target {reference : String} {target : Value}
      (hreference : schema.require "$ref" = .ok (.text reference))
      (h : lookup document reference = .ok target) : Follows document schema target
  | member {all sub : Value} {subs : List Value} (hall : schema.require "allOf" = .ok all)
      (hsubs : all.elements = .ok subs) (h : sub ∈ subs) : Follows document schema sub

/-- A property that a value hands down to what is within it, and that a document has. -/
structure Hereditary (document : Value) (P : Value → Prop) : Prop where
  scalar (s : Scalar) : P (.scalar s)
  items {items : List Value} : P (.sequence items) → ∀ v ∈ items, P v
  members {ms : Members} : P (.mapping ms) → ∀ m ∈ ms, P m.2
  document : P document

theorem lookup_ok {reference : String} {target : Value}
    (h : lookup document reference = .ok target) :
    (∃ ms, target = .mapping ms) ∧ target ∈ document.nodes := by
  unfold lookup at h
  split at h
  · rename_i ms hms
    cases h
    exact ⟨⟨ms, rfl⟩, Value.resolve_mem_nodes hms⟩
  · cases h
  · cases h
  · cases h

namespace Hereditary

variable (hP : Hereditary document P)

include hP

theorem of_mem_nodes {v w : Value} (hv : P v) (h : w ∈ v.nodes) : P w := by
  induction v with
  | scalar s => exact Value.mem_nodes_scalar.mp h ▸ hv
  | sequence items ih =>
    rcases Value.mem_nodes_sequence.mp h with rfl | ⟨x, hx, hw⟩
    · exact hv
    · exact ih x hx (hP.items hv x hx) hw
  | mapping ms ih =>
    rcases Value.mem_nodes_mapping.mp h with rfl | ⟨m, hm, hw⟩
    · exact hv
    · exact ih m hm (hP.members hv m hm) hw

theorem get? {ms : Members} {key : String} {v : Value} (h : P (.mapping ms))
    (hv : Members.get? ms key = some v) : P v :=
  hP.members h _ (Value.mem_of_get?_eq_some hv)

theorem get {v x : Value} {key : String} (h : P v) (hx : v.get key = .ok x) : P x := by
  obtain ⟨ms, rfl, rfl⟩ := get_ok_iff.mp hx
  cases hget : Members.get? ms key with
  | none => exact hP.scalar .null
  | some y => exact hP.get? h hget

theorem elements {v : Value} {xs : List Value} (h : P v) (hxs : v.elements = .ok xs) :
    ∀ x ∈ xs, P x := by
  unfold Value.elements at hxs
  split at hxs
  · cases hxs
    exact hP.items h
  · cases hxs
    intro x hx
    obtain ⟨m, -, rfl⟩ := List.mem_map.mp hx
    exact hP.scalar m.1
  · cases hxs
    intro x hx
    obtain ⟨c, -, rfl⟩ := List.mem_map.mp hx
    exact hP.scalar _
  · cases hxs

theorem entries {v : Value} {ms : Members} (h : P v) (hms : v.entries = .ok ms) :
    ∀ m ∈ ms, P m.2 := by
  unfold Value.entries at hms
  split at hms
  · cases hms
    exact hP.members h
  · obtain ⟨parts, hparts, hpairs⟩ := except_bind_ok_iff.mp hms
    intro m hm
    obtain ⟨pair, hpair, hm⟩ := exists_mem_of_mapM_ok hpairs hm
    simp only [Value.asPair, except_bind_ok_iff] at hm
    obtain ⟨both, hboth, hm⟩ := hm
    split at hm
    · simp only [except_bind_ok_iff, except_pure_ok_iff] at hm
      obtain ⟨_, -, rfl⟩ := hm
      exact hP.elements (hP.elements h hparts pair hpair) hboth _ (by simp)
    · cases hm

theorem lookup {reference : String} {target : Value}
    (h : Schema.lookup document reference = .ok target) : P target :=
  hP.of_mem_nodes hP.document (lookup_ok h).2

end Hereditary

end OpenApiClient.Schema

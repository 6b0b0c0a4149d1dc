import OpenApiClient.Proofs.BadPointers
import OpenApiClient.Proofs.ListedOperations

/-! # Path items behind references

Bodies and responses are looked up by following references until one leads to none. A path item is
looked up by one reference alone: what this leads to is taken for the path item, be it a reference
again. So a path has the operations at the end of a chain when the chain has one reference, and
otherwise only those that stand beside the second reference. -/
namespace OpenApiClient.Operation

variable {document item target : Value} {ms : Members} {path : Scalar} {reference : String} {n : Nat}

/-- Listing the operations of a path item ends only at a value of the wrong kind. -/
theorem ofItem_fault {fault : Fault} (h : .error fault ∈ ofItem path item) : fault = .wrongType := by
  cases item with
  | mapping fields =>
    rw [ofItem_eq] at h
    obtain ⟨o, ho, hentry⟩ := List.mem_map.mp h
    have hlists := entryOf_lists (mem_declaredBy.mp ho).2.1
    rw [hentry] at hlists
    cases hlists
    rfl
  | _ => exact Except.error.inj (List.mem_singleton.mp h)

theorem ofItem_of_none {fields : Members}
    (h : ∀ method : HttpMethod, Members.get? fields method.key = none) :
    ofItem path (.mapping fields) = [] := by
  rw [ofItem_eq, List.map_eq_nil_iff, declaredBy, List.filterMap_eq_nil_iff]
  intro method _
  rw [declaredAt?, get_mapping, h]
  rfl

/-- A path item that is a reference has what the reference leads to. -/
theorem entriesAt_of_referent (href : item.require "$ref" = .ok (.text reference))
    (h : document.referent reference = .ok target) :
    entriesAt document path item = ofItem path target := by
  rw [entriesAt, pathItem_eq_referent href, h]

theorem entriesAt_of_astray {fault : Fault} (href : item.require "$ref" = .ok (.text reference))
    (h : document.referent reference = .error fault) :
    entriesAt document path item = [.error fault] := by
  rw [entriesAt, pathItem_eq_referent href, h]

private theorem referent_fault {fault : Fault} (h : document.referent reference = .error fault) :
    fault ≠ .wrongType := by
  rcases referent_error_cases h with ⟨rfl, -⟩ | rfl
  · nofun
  · nofun

theorem astray_of_comesTo {fault : Fault} (h : ComesTo document.referent n item (.error fault)) :
    ∃ reference, document.referent reference = .error fault := by
  generalize hresult : Except.error fault = result at h
  induction h with
  | plain => cases hresult
  | astray _ hlook =>
    obtain rfl := Except.error.inj hresult
    exact ⟨_, hlook⟩
  | next _ _ _ ih => exact ih hresult

theorem follow_of_comesTo {result : Except Fault Value} (h : ComesTo document.referent n item result) :
    follow document item = result :=
  h.reached (followWith_followsNew document) fun _ _ hlook =>
    Value.resolve_mem_nodes (referent_ok_iff.mp hlook)

/-- At the end of a chain of references stands what the first reference leads to, if it is the only
one, and otherwise this is a reference again. -/
theorem entriesAt_of_chain {P : Value} (href : item.require "$ref" = .ok (.text reference))
    (h : ComesTo document.referent n item (.ok P)) :
    (n = 1 → entriesAt document path item = ofItem path P) ∧
      (n ≠ 1 → ∃ target, document.resolve reference = .ok target ∧
        target.mentions "$ref" = .ok true ∧ entriesAt document path item = ofItem path target) := by
  cases h with
  | plain hplain => cases hplain.symm.trans (mentions_of_require href)
  | @next _ target _ _ _ href' hlook hrest =>
    obtain rfl := reference_unique href href'
    have hentries : entriesAt document path item = ofItem path target :=
      entriesAt_of_referent href hlook
    cases hrest with
    | plain => exact ⟨fun _ => hentries, fun hne => absurd rfl hne⟩
    | next hfurther =>
      refine ⟨fun h => absurd (Nat.succ.inj h) (Nat.succ_ne_zero _), fun _ => ?_⟩
      exact ⟨target, referent_ok_iff.mp hlook, mentions_of_require hfurther, hentries⟩

/-- A chain that goes astray is told of when it does so at its first reference. -/
theorem fault_mem_entriesAt_iff {fault : Fault}
    (href : item.require "$ref" = .ok (.text reference))
    (h : ComesTo document.referent n item (.error fault)) :
    .error fault ∈ entriesAt document path item ↔ n = 0 := by
  cases h with
  | astray href' hlook =>
    obtain rfl := reference_unique href href'
    rw [entriesAt_of_astray href hlook]
    simp
  | next href' hlook hrest =>
    obtain rfl := reference_unique href href'
    rw [entriesAt_of_referent href hlook]
    -- A fault of the operations themselves is of another kind than those of references.
    obtain ⟨_, hfault⟩ := astray_of_comesTo hrest
    exact iff_of_false (fun hmem => referent_fault hfault (ofItem_fault hmem)) (Nat.succ_ne_zero _)

theorem dangling_mem_entriesAt_iff (href : item.require "$ref" = .ok (.text reference))
    (other : String) : .error (dangling other) ∈ entriesAt document path item ↔
      other = reference ∧ document.resolve reference = .error .missingEntry := by
  cases hresolve : document.resolve reference with
  | ok target =>
    rw [entriesAt_of_referent href (referent_ok_iff.mpr hresolve)]
    exact iff_of_false (fun hmem => nomatch ofItem_fault hmem) nofun
  | error fault =>
    rcases Pointer.resolve_error hresolve with rfl | rfl
    · have hreferent : document.referent reference = .error (dangling reference) := by
        rw [Value.referent, hresolve]
      rw [entriesAt_of_astray href hreferent]
      simp [dangling, Fault.of]
    · have hreferent : document.referent reference = .error .badValue := by
        rw [Value.referent, hresolve]
      rw [entriesAt_of_astray href hreferent]
      simp [dangling, Fault.of]

/-- What is listed for a path whose item is a reference. Where following references comes to a path item,
as it does for bodies and responses, its operations are listed when the first reference leads to it;
otherwise those are listed that stand beside the second reference, if any do. A reference that leads
nowhere is told of when it is the first one, and of no other reference anything is told, be it astray or
met again. -/
theorem entries_behind_reference (document : Value) (path : Scalar)
    (href : item.require "$ref" = .ok (.text reference)) :
    (∀ ms, paths document = .ok ms →
      listing document = ms.flatMap fun m => entriesAt document m.1 m.2) ∧
    (∀ n P, ComesTo document.referent n item (.ok P) → follow document item = .ok P ∧
      (n = 1 → entriesAt document path item = ofItem path P) ∧
      (n ≠ 1 → ∃ target, document.resolve reference = .ok target ∧
        target.mentions "$ref" = .ok true ∧ entriesAt document path item = ofItem path target)) ∧
    (∀ n fault, ComesTo document.referent n item (.error fault) →
      follow document item = .error fault ∧
      (.error fault ∈ entriesAt document path item ↔ n = 0)) ∧
    (∀ other, .error (dangling other) ∈ entriesAt document path item ↔
      other = reference ∧ document.resolve reference = .error .missingEntry) ∧
    ∀ fields, document.resolve reference = .ok (.mapping fields) →
      (∀ method : HttpMethod, Members.get? fields method.key = none) →
      entriesAt document path item = [] := by
  refine ⟨fun ms => listing_eq_flatMap, fun n P h => ?_, fun n fault h => ?_,
    dangling_mem_entriesAt_iff href, fun fields hresolve hnone => ?_⟩
  · exact ⟨follow_of_comesTo h, entriesAt_of_chain href h⟩
  · exact ⟨follow_of_comesTo h, fault_mem_entriesAt_iff href h⟩
  · rw [entriesAt_of_referent href (referent_ok_iff.mpr hresolve), ofItem_of_none hnone]

def referring (key : String) : Value := .mapping [(.text "$ref", .text ("#/items/" ++ key))]

def getItem : Value := .mapping [(.text "get", .empty)]

/-- A path whose item refers to one of two others, of which the first one refers to the second one. -/
def aliasing (key : String) : Value :=
  .mapping [(.text "paths", .mapping [(.text "/a", referring key)]),
    (.text "items", .mapping [(.text "alias", referring "real"), (.text "real", getItem)])]

/-- One reference is followed to the operation, and behind the other one it is lost. -/
theorem entries_behind_reference_aliasing :
    entriesAt (aliasing "real") (.text "/a") (referring "real") =
        [.ok ⟨.text "/a", .get, .empty⟩] ∧
      follow (aliasing "alias") (referring "alias") = .ok getItem ∧
      entriesAt (aliasing "alias") (.text "/a") (referring "alias") = [] := by
  have hreal : (referring "real").require "$ref" = .ok (.text "#/items/real") := rfl
  have halias : (referring "alias").require "$ref" = .ok (.text "#/items/alias") := rfl
  have hone : ComesTo (aliasing "real").referent 1 (referring "real") (.ok getItem) :=
    .next rfl rfl (.plain rfl)
  have htwo : ComesTo (aliasing "alias").referent 2 (referring "alias") (.ok getItem) :=
    .next rfl rfl (.next rfl rfl (.plain rfl))
  obtain ⟨-, hfound, -⟩ := entries_behind_reference (aliasing "real") (.text "/a") hreal
  obtain ⟨-, hlost, -, -, hnone⟩ := entries_behind_reference (aliasing "alias") (.text "/a") halias
  refine ⟨((hfound 1 getItem hone).2.1 rfl).trans rfl, (hlost 2 getItem htwo).1, ?_⟩
  exact hnone _ rfl fun method => by cases method <;> rfl

/-- The operation behind two references is not listed. -/
theorem not_entries_behind_reference : ¬ ∀ (document item P : Value) (ms : Members) (path : Scalar)
    (n : Nat), paths document = .ok ms → (path, item) ∈ ms →
    ComesTo document.referent n item (.ok P) → ∀ entry ∈ ofItem path P, entry ∈ listing document := by
  intro h
  have htwo : ComesTo (aliasing "alias").referent 2 (referring "alias") (.ok getItem) :=
    .next rfl rfl (.next rfl rfl (.plain rfl))
  have hlisting : listing (aliasing "alias") = [] := rfl
  have hlisted := h _ _ _ _ (.text "/a") 2 rfl List.mem_cons_self htwo _ List.mem_cons_self
  simp [hlisting] at hlisted

end OpenApiClient.Operation

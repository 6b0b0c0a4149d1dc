import OpenApiClient.Operation.Body
import OpenApiClient.Operation.Listing
import OpenApiClient.Proofs.ReferenceLoops
import OpenApiClient.Proofs.TextParts
import OpenApiClient.Schema.Flatten

/-! # Pointers that lead nowhere

A pointer leads to a node of the document or to none, and whoever follows it tells of a reference
that leads nowhere. The exception is a pointer into a sequence that has digits for an index and yet
writes no number: it is of no use, and nobody tells of it. -/
namespace OpenApiClient

variable {document node : Value} {reference part : String} {fault : Fault}

namespace Pointer

/-- Digits that write no number: there are too many, or one of them has no value. -/
structure IsMiscount (part : String) : Prop where
  nonempty : part.toList ≠ []
  digits : ∀ c ∈ part.toList, Text.isDigitSign c
  unread : Text.digitLimit < part.toList.length ∨ ∃ c ∈ part.toList, Text.decimalDigit? c = none

/-- Whether a pointer leads to a sequence and goes on with digits that write no number. -/
def Miscounts (document : Value) (reference : String) : Prop :=
  ∃ before part after items, steps? reference = some (before ++ part :: after) ∧
    before.foldlM step document = .ok (.sequence items) ∧ IsMiscount part

theorem step_badValue_iff :
    step node part = .error .badValue ↔ (∃ items, node = .sequence items) ∧ IsMiscount part := by
  cases node with
  | scalar s => simp [step]
  | mapping ms => cases hms : Members.get? ms part <;> simp [step, hms]
  | sequence items =>
    simp only [step, Value.sequence.injEq, exists_eq', true_and]
    split
    · rename_i hcount
      refine ⟨fun h => (by cases h), fun h => absurd hcount ?_⟩
      simpa [h.nonempty] using h.digits
    · rename_i hcount
      obtain ⟨hne, hdigits⟩ : part.toList ≠ [] ∧ ∀ c ∈ part.toList, Text.isDigitSign c := by
        simpa using hcount
      split
      · rename_i hread
        exact ⟨fun _ => ⟨hne, hdigits, Text.readDigits?_eq_none_iff.mp hread⟩, fun _ => rfl⟩
      · rename_i i hread
        refine ⟨fun h => ?_, fun h => ?_⟩
        · split at h <;> cases h
        · cases (Text.readDigits?_eq_none_iff.mpr h.unread).symm.trans hread

private theorem step_error (h : step node part = .error fault) :
    fault = .missingEntry ∨ fault = .badValue := by
  unfold step at h
  split at h
  · split at h
    · cases h
    · exact .inl (Except.error.inj h).symm
  · dsimp only at h
    split at h
    · exact .inl (Except.error.inj h).symm
    split at h
    · exact .inr (Except.error.inj h).symm
    split at h
    · cases h
    · exact .inl (Except.error.inj h).symm
  · exact .inl (Except.error.inj h).symm

/-! ## Where a pointer leads -/

theorem resolve_badValue_iff :
    document.resolve reference = .error .badValue ↔ Miscounts document reference := by
  rw [Value.resolve, Miscounts]
  cases steps? reference with
  | none => simp
  | some steps =>
    simp only [foldlM_error_iff, step_badValue_iff, Option.some.injEq]
    constructor
    · rintro ⟨before, part, after, _, hsteps, hbefore, ⟨items, rfl⟩, hpart⟩
      exact ⟨before, part, after, items, hsteps, hbefore, hpart⟩
    · rintro ⟨before, part, after, items, hsteps, hbefore, hpart⟩
      exact ⟨before, part, after, _, hsteps, hbefore, ⟨items, rfl⟩, hpart⟩

theorem resolve_error (h : document.resolve reference = .error fault) :
    fault = .missingEntry ∨ fault = .badValue := by
  rw [Value.resolve] at h
  split at h
  · exact .inl (Except.error.inj h).symm
  · obtain ⟨part, -, node, hstep⟩ := foldlM_error h
    exact step_error hstep

end Pointer

/-! ## Who follows a pointer -/

def dangling (reference : String) : Fault := .of (.danglingReference (.text reference))

/-- What a reference refers to. One that leads nowhere is told of. -/
def Value.referent (document : Value) (reference : String) : Except Fault Value :=
  match document.resolve reference with
  | .error .missingEntry => .error (dangling reference)
  | found => found

theorem referent_error_iff (h : document.resolve reference = .error fault) :
    document.referent reference = .error (dangling reference) ↔
      ¬ Pointer.Miscounts document reference := by
  rw [← Pointer.resolve_badValue_iff, Value.referent, h]
  rcases Pointer.resolve_error h with rfl | rfl
  · simp
  · simp [dangling, Fault.of]

theorem referent_ok_iff : document.referent reference = .ok node ↔
    document.resolve reference = .ok node := by
  unfold Value.referent
  split <;> simp_all

theorem referent_error_cases (h : document.referent reference = .error fault) :
    fault = dangling reference ∧ document.resolve reference = .error .missingEntry ∨
      fault = .badValue := by
  cases hresolve : document.resolve reference with
  | ok target => cases h.symm.trans (referent_ok_iff.mpr hresolve)
  | error other =>
    rw [Value.referent, hresolve] at h
    rcases Pointer.resolve_error hresolve with rfl | rfl
    · exact .inl ⟨(Except.error.inj h).symm, rfl⟩
    · exact .inr (Except.error.inj h).symm

theorem dangling_injective {other : String} (h : dangling reference = dangling other) :
    reference = other := by
  simpa [dangling, Fault.of] using h

private theorem lookup_eq_referent (h : document.resolve reference = .error fault) :
    Schema.lookup document reference = document.referent reference := by
  rw [Schema.lookup, Value.referent, h]
  rcases Pointer.resolve_error h with rfl | rfl <;> rfl

namespace Operation

theorem pathItem_eq_referent (href : node.require "$ref" = .ok (.text reference)) :
    pathItem document node = document.referent reference := by
  rw [pathItem, mentions_of_require href, href]
  simp only [bind, Except.bind, if_true, Value.asText, Value.referent]
  rfl

theorem followWith_followsNew (document : Value) :
    FollowsNew document.referent (followWith document) where
  plain h := by
    rw [followWith, h]
    rfl
  next {fuel seen node reference} href hnew := by
    rw [followWith, mentions_of_require href, href, Value.referent]
    simp only [bind, Except.bind, if_true, Value.asText, hnew, Bool.false_eq_true, if_false]
    cases document.resolve reference with
    | ok target => rfl
    | error fault => cases fault <;> rfl

/-- Whether a reference is met when those of a value are followed one after the other. -/
inductive Meets (document : Value) : Value → String → Prop
  | here {node : Value} {reference : String} (href : node.require "$ref" = .ok (.text reference)) :
      Meets document node reference
  | further {node target : Value} {reference further : String}
      (href : node.require "$ref" = .ok (.text reference))
      (h : document.resolve reference = .ok target) (hrest : Meets document target further) :
      Meets document node further

private theorem Meets.comesTo (h : Meets document node reference)
    (hbad : document.referent reference = .error fault) :
    ∃ n, ComesTo document.referent n node (.error fault) := by
  induction h with
  | here href => exact ⟨0, .astray href hbad⟩
  | further href h _ ih =>
    obtain ⟨n, hn⟩ := ih hbad
    exact ⟨n + 1, .next href (referent_ok_iff.mpr h) hn⟩

/-- Following references ends at the first one that leads to no value. -/
theorem Meets.follow_eq (h : Meets document node reference)
    (hbad : document.resolve reference = .error fault) :
    follow document node = document.referent reference := by
  cases hreferent : document.referent reference with
  | ok found => cases hbad.symm.trans (referent_ok_iff.mp hreferent)
  | error fault =>
    obtain ⟨n, hn⟩ := h.comesTo hreferent
    exact hn.reached (followWith_followsNew document) fun _ _ h =>
      Value.resolve_mem_nodes (referent_ok_iff.mp h)

end Operation

/-- A pointer leads to a node of the document or to none, exactly when it does not go into a
sequence with digits that write no number. Of a reference that leads to no value those who look up
schemas, path items, bodies and responses tell in the same cases, also of one that is met behind
others. -/
theorem resolve_answers_iff (document : Value) (reference : String) :
    (((∃ node ∈ document.nodes, document.resolve reference = .ok node) ∨
        document.resolve reference = .error .missingEntry) ↔
      ¬ Pointer.Miscounts document reference) ∧
    (Pointer.Miscounts document reference → document.resolve reference = .error .badValue) ∧
    ((∀ node, document.resolve reference ≠ .ok node) →
      (Schema.lookup document reference = .error (dangling reference) ↔
        ¬ Pointer.Miscounts document reference) ∧
      (∀ item, item.require "$ref" = .ok (.text reference) →
        (Operation.pathItem document item = .error (dangling reference) ↔
          ¬ Pointer.Miscounts document reference)) ∧
      ∀ node, Operation.Meets document node reference →
        (Operation.follow document node = .error (dangling reference) ↔
          ¬ Pointer.Miscounts document reference)) := by
  refine ⟨?_, Pointer.resolve_badValue_iff.mpr, fun hbad => ?_⟩
  · rw [← Pointer.resolve_badValue_iff]
    cases hresolve : document.resolve reference with
    | ok node => simp [Value.resolve_mem_nodes hresolve]
    | error fault => rcases Pointer.resolve_error hresolve with rfl | rfl <;> simp
  · cases hresolve : document.resolve reference with
    | ok node => exact absurd hresolve (hbad node)
    | error fault =>
      have htold := referent_error_iff hresolve
      refine ⟨?_, fun item href => ?_, fun node hmeets => ?_⟩
      · rwa [lookup_eq_referent hresolve]
      · rwa [Operation.pathItem_eq_referent href]
      · rwa [hmeets.follow_eq hresolve]

def counted : Value :=
  .mapping [(.text "items", .sequence [.text "first"]),
    (.text "next", .mapping [(.text "$ref", .text "#/items/1")])]

/-- The second item is told to be missing, by whoever follows the reference to it. -/
theorem resolve_answers_counted :
    counted.resolve "#/items/1" = .error .missingEntry ∧
      Schema.lookup counted "#/items/1" = .error (dangling "#/items/1") ∧
      Operation.pathItem counted (.mapping [(.text "$ref", .text "#/items/1")]) =
        .error (dangling "#/items/1") ∧
      Operation.follow counted (.mapping [(.text "$ref", .text "#/next")]) =
        .error (dangling "#/items/1") := by
  have hmissing : counted.resolve "#/items/1" = .error .missingEntry := rfl
  have hnode : ∀ node, counted.resolve "#/items/1" ≠ .ok node := by
    intro node h
    cases hmissing.symm.trans h
  obtain ⟨hanswers, -, htold⟩ := resolve_answers_iff counted "#/items/1"
  have hcount : ¬ Pointer.Miscounts counted "#/items/1" := hanswers.mp (.inr hmissing)
  obtain ⟨hlookup, hitem, hfollow⟩ := htold hnode
  have hmeets : Operation.Meets counted (.mapping [(.text "$ref", .text "#/next")]) "#/items/1" :=
    .further rfl rfl (.here rfl)
  exact ⟨hmissing, hlookup.mpr hcount, (hitem _ rfl).mpr hcount, (hfollow _ hmeets).mpr hcount⟩

/-- A raised two shows a digit and has no value. -/
theorem not_resolve_answers : ¬ ∀ (document : Value) (reference : String),
    (∃ node ∈ document.nodes, document.resolve reference = .ok node) ∨
      document.resolve reference = .error .missingEntry := by
  intro h
  have hbad : counted.resolve "#/items/²" = .error .badValue := by decide
  rcases h counted "#/items/²" with ⟨node, -, hnode⟩ | hmissing
  · cases hbad.symm.trans hnode
  · cases hbad.symm.trans hmissing

end OpenApiClient

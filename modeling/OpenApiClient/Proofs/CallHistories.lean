import OpenApiClient.Proofs.RegistryGrowth

/-! # Histories of calls

Calls are made one after another on one registry. A call that fails keeps what it registered, and
the next call goes on from there. Between calls the registry only grows, and a type under a
preferred name is always a new one. -/
namespace OpenApiClient.Schema

open RegistryM

variable {document : Value} {r s : Registry}

structure Call where
  preferred : Option String
  schema : Value
  nullable : Bool
  hint : String

def Call.run (document : Value) (call : Call) : RegistryM TypeId :=
  Schema.resolve document call.preferred call.schema call.nullable call.hint

namespace Registry

/-- The registry that a call leaves, whether it succeeds or fails. -/
def afterCall (document : Value) (r : Registry) (call : Call) : Registry :=
  (outcome (call.run document) r).2

/-- The registry that calls leave which are made one after another. -/
def afterCalls (document : Value) (r : Registry) (calls : List Call) : Registry :=
  calls.foldl (afterCall document) r

/-- The registry that calls leave when nothing was registered before them. -/
def history (document : Value) (calls : List Call) : Registry := afterCalls document {} calls

theorem afterCall_extends (document : Value) (r : Registry) (call : Call) :
    r.Extends (r.afterCall document call) :=
  resolve_extends document call.preferred call.schema call.nullable call.hint r

theorem history_append (document : Value) (calls more : List Call) :
    history document (calls ++ more) = (history document calls).afterCalls document more :=
  List.foldl_append

/-- What every call keeps, a history of calls keeps. -/
theorem afterCalls_induct {P : Registry → Prop} (h : P r)
    (hcall : ∀ {s : Registry} (call : Call), P s → P (s.afterCall document call))
    (calls : List Call) : P (r.afterCalls document calls) := by
  induction calls generalizing r with
  | nil => exact h
  | cons call calls ih => exact ih (hcall call h)

private theorem Extends.entries_prefix (h : r.Extends s) : r.entries.toList <+: s.entries.toList := by
  refine List.prefix_iff_getElem?.mpr fun id hid => ?_
  have hentry : s.entries[id]? = r.entries[id]? := h.entry (by simpa using hid)
  rw [Array.getElem?_toList, hentry, Array.getElem?_eq_getElem (by simpa using hid)]
  simp

end Registry

theorem resolve_named_fresh {text : String} (htext : text ≠ "") {schema : Value} {hint : String}
    {id : TypeId}
    (h : outcome (Schema.resolve document (some text) schema false hint) r = (.ok id, s)) :
    id = r.entries.size ∧ id < s.entries.size := by
  rw [resolve_named document htext, outcome_bind, outcome_claim_register] at h
  cases hbody : outcome (describe document (resolveWith document
      (resolveDepth document schema.orEmpty) []) schema.orEmpty (r.nameFor text))
      (r.named (r.nameFor text)) with
  | mk x t =>
    cases x with
    | ok e =>
      have hsize : (r.named (r.nameFor text)).entries.size ≤ t.entries.size :=
        (describe_extends (resolveWith_growing document _ []) hbody).size
      simp only [hbody, wrap, Bool.false_eq_true, if_false, outcome_pure, Prod.mk.injEq,
        Except.ok.injEq] at h
      obtain ⟨rfl, rfl⟩ := h
      rw [Registry.size_replace]
      exact ⟨rfl, Nat.lt_of_lt_of_le (Registry.size_push _ _ ▸ Nat.lt_succ_self _) hsize⟩
    | error fault => simp [hbody] at h

/-- A call, whether it succeeds or fails, puts new entries behind those that are there and leaves
these as they are. What was remembered and what names are taken stays. A preferred name gets a type
that was not there before. -/
theorem registry_append_only (document : Value) (calls : List Call) (call : Call) :
    let before := Registry.history document calls
    let after := before.afterCall document call
    before.entries.toList <+: after.entries.toList ∧ before.names <:+ after.names ∧
      (∀ text id, before.refs.lookup text = some id → after.refs.lookup text = some id) ∧
      (∀ key id, before.anonymous.lookup key = some id → after.anonymous.lookup key = some id) ∧
      ∀ id, call.preferred.getD "" ≠ "" → call.nullable = false →
        (outcome (call.run document) before).1 = .ok id →
          id = before.entries.size ∧ id < after.entries.size := by
  intro before after
  have hgrown : before.Extends after := before.afterCall_extends document call
  refine ⟨hgrown.entries_prefix, hgrown.names, fun _ _ => hgrown.reference,
    fun _ _ => hgrown.shape, fun id hpreferred hnullable hid => ?_⟩
  obtain ⟨text, hsome⟩ : ∃ text, call.preferred = some text := by
    cases hnone : call.preferred with
    | none => simp [hnone] at hpreferred
    | some text => exact ⟨text, rfl⟩
  have hrun : outcome (Schema.resolve document (some text) call.schema false call.hint) before =
      (.ok id, after) := by
    rw [← hsome, ← hnullable]
    exact Prod.ext hid rfl
  exact resolve_named_fresh (by simpa [hsome] using hpreferred) hrun

def textDocument : Value :=
  .mapping [(.text "Thing", .mapping [(.text "type", .text "string")])]

def thingCall (preferred : Option String) : Call :=
  ⟨preferred, .mapping [(.text "$ref", .text "#/Thing")], false, ""⟩

/-- The type of a reference that is known is not the one that a preferred name gets. -/
theorem registry_append_only_thing :
    let before := Registry.history textDocument [thingCall none]
    before.refs.lookup "#/Thing" = some 0 ∧ before.entries.size = 1 ∧
      (outcome ((thingCall (some "thing")).run textDocument) before).1 = .ok 1 ∧
      1 < (before.afterCall textDocument (thingCall (some "thing"))).entries.size := by
  have hid : (outcome ((thingCall (some "thing")).run textDocument)
      (Registry.history textDocument [thingCall none])).1 = .ok 1 := rfl
  obtain ⟨-, -, -, -, hfresh⟩ := registry_append_only textDocument [thingCall none]
    (thingCall (some "thing"))
  exact ⟨by decide, by decide, hid, (hfresh 1 (by decide) rfl hid).2⟩

end OpenApiClient.Schema

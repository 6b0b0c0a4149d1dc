import OpenApiClient.Proofs.CallHistories
import OpenApiClient.Proofs.PartClosure

/-! # Where the bodies of types come from

A type of a registry is filled in from a schema that was described, unless it admits null of another
type or still waits for its description. What schemas hand on to everything they lead to, all of the
schemas that were described have. -/
namespace OpenApiClient.Schema

open RegistryM

variable {document schema : Value} {P : Value → Prop} {resolve : Resolver} {hint key : String}
  {r s t : Registry} {e : Entry}

inductive IsDescribed (document : Value) (P : Value → Prop) : Body → Prop
  | layered {schema : Value} {hint : String} {outer : Layer} {ids : List TypeId} (h : P schema)
      (houter : layer document schema hint = .ok outer) (hids : ids.length = outer.parts.length) :
      IsDescribed document P (outer.frame.fill ids)
  | optional (item : TypeId) : IsDescribed document P (.optional item)
  | waiting : IsDescribed document P (.primitive .any)

def Registry.Described (document : Value) (P : Value → Prop) (r : Registry) : Prop :=
  ∀ e ∈ r.entries.toList, IsDescribed document P e.body

/-- Whether a resolution of schemas with the property keeps this so, also where it fails. -/
def Describing (document : Value) (P : Value → Prop) (resolve : Resolver) : Prop :=
  ∀ {schema hint r x t}, P schema.orEmpty → r.Described document P →
    outcome (resolve schema hint) r = (x, t) → t.Described document P

namespace Registry.Described

private theorem empty : ({} : Registry).Described document P := by simp [Described]

theorem add (h : r.Described document P) (hentries : s.entries = r.entries.push e)
    (he : IsDescribed document P e.body) : s.Described document P := by
  intro e' he'
  rw [hentries, Array.toList_push, List.mem_append, List.mem_singleton] at he'
  rcases he' with he' | rfl
  · exact h e' he'
  · exact he

theorem replace (h : r.Described document P) (i : TypeId) (he : IsDescribed document P e.body) :
    (r.replace i e).Described document P := by
  intro e' he'
  rw [Registry.replace, Array.toList_setIfInBounds] at he'
  rcases List.mem_or_eq_of_mem_set he' with he' | rfl
  · exact h e' he'
  · exact he

end Registry.Described

theorem resolvePart_described (hresolve : Describing document P resolve) {part : Part}
    (hpart : P part.schema.orEmpty) (hr : r.Described document P) {x : Except Fault TypeId}
    (h : outcome (resolvePart resolve part) r = (x, t)) : t.Described document P := by
  cases x with
  | ok id => exact hresolve hpart hr (resolvePart_ok h).1
  | error fault =>
    rcases resolvePart_error h with h | ⟨id, h, -⟩
    · exact hresolve hpart hr h
    · exact hresolve hpart hr h

theorem parts_described_of_ok (hresolve : Describing document P resolve) {parts : List Part}
    (hparts : ∀ part ∈ parts, P part.schema.orEmpty) (hr : r.Described document P)
    {ids : List TypeId} (h : outcome (parts.mapM (resolvePart resolve)) r = (.ok ids, t)) :
    t.Described document P ∧ ids.length = parts.length := by
  induction parts generalizing r ids with
  | nil =>
    simp only [mapM_nil_outcome, Prod.mk.injEq, Except.ok.injEq] at h
    obtain ⟨rfl, rfl⟩ := h
    exact ⟨hr, rfl⟩
  | cons part rest ih =>
    obtain ⟨id, s, others, hid, hothers, rfl⟩ := mapM_cons_ok_iff.mp h
    obtain ⟨hpart, hrest⟩ := List.forall_mem_cons.mp hparts
    obtain ⟨ht, hlength⟩ := ih hrest (resolvePart_described hresolve hpart hr hid) hothers
    exact ⟨ht, by simp [hlength]⟩

private theorem parts_described (hresolve : Describing document P resolve) {parts : List Part}
    (hparts : ∀ part ∈ parts, P part.schema.orEmpty) (hr : r.Described document P)
    {x : Except Fault (List TypeId)}
    (h : outcome (parts.mapM (resolvePart resolve)) r = (x, t)) : t.Described document P := by
  cases x with
  | ok ids => exact (parts_described_of_ok hresolve hparts hr h).1
  | error fault =>
    obtain ⟨before, part, after, ids, s, rfl, hbefore, hpart⟩ := mapM_error h
    obtain ⟨hallBefore, hrest⟩ := List.forall_mem_append.mp hparts
    have hs := (parts_described_of_ok hresolve hallBefore hr hbefore).1
    exact resolvePart_described hresolve (hrest part List.mem_cons_self) hs hpart

variable (hP : PartClosed document P)
include hP

theorem describe_described (hresolve : Describing document P resolve) (h : P schema)
    (hr : r.Described document P) {x : Except Fault Entry}
    (hdescribe : outcome (describe document resolve schema hint) r = (x, t)) :
    t.Described document P ∧ ∀ {e}, x = .ok e → IsDescribed document P e.body := by
  have hparts : ∀ {outer : Layer}, layer document schema hint = .ok outer →
      ∀ part ∈ outer.parts, P part.schema.orEmpty :=
    fun houter part hpart => hP.orEmpty (hP.part h houter part hpart)
  cases x with
  | ok e =>
    obtain ⟨_, outer, ids, -, houter, hids, rfl⟩ := describe_ok_iff.mp hdescribe
    obtain ⟨ht, hlength⟩ := parts_described_of_ok hresolve (hparts houter) hr hids
    refine ⟨ht, ?_⟩
    rintro _ ⟨⟩
    exact .layered h houter hlength
  | error fault =>
    refine ⟨?_, fun he => by cases he⟩
    rcases describe_error hdescribe with ⟨rfl, -⟩ | ⟨outer, houter, hids⟩
    · exact hr
    · exact parts_described hresolve (hparts houter) hr hids

private theorem resolveRef_described (hresolve : Describing document P resolve)
    (hr : r.Described document P) {reference : Value} {x : Except Fault TypeId}
    (h : outcome (resolveRef document resolve reference) r = (x, t)) : t.Described document P := by
  have hopened : ∀ text name, (r.opened text name).Described document P :=
    fun text name => hr.add rfl .waiting
  cases x with
  | ok id =>
    obtain ⟨text, -, ⟨-, rfl⟩ | ⟨target, e, s, -, htarget, hdescribe, rfl, rfl⟩⟩ := resolveRef_ok h
    · exact hr
    · obtain ⟨hs, he⟩ :=
        describe_described hP hresolve (hP.lookup htarget) (hopened _ _) hdescribe
      have hbody : IsDescribed document P e.body := he rfl
      exact hs.replace _ hbody
  | error fault =>
    rcases resolveRef_error h with ⟨rfl, -⟩ | ⟨text, target, -, -, htarget, hdescribe⟩
    · exact hr
    · exact (describe_described hP hresolve (hP.lookup htarget) (hopened _ _) hdescribe).1

private theorem resolveWith_described (fuel : Nat) (active : List (Value × Nat)) :
    Describing document P (resolveWith document fuel active) := by
  induction fuel generalizing active with
  | zero =>
    intro schema hint r x t _ hr h
    simp only [resolveWith, outcome_throw, Prod.mk.injEq] at h
    exact h.2 ▸ hr
  | succ fuel ih =>
    intro schema hint r x t hschema hr h
    cases x with
    | ok id =>
      rcases resolveWith_ok h with ⟨_, -, -, href⟩ |
        ⟨-, key, -, ⟨-, rfl⟩ | ⟨e, s, -, -, hdescribe, rfl, hsettles⟩⟩
      · exact resolveRef_described hP (ih []) hr href
      · exact hr
      · obtain ⟨hs, he⟩ := describe_described hP (ih _) hschema hr hdescribe
        have hbody : IsDescribed document P e.body := he rfl
        cases hsettles with
        | unnamed hneeds => exact hs.add rfl hbody
        | named text hneeds htext => exact hs.add rfl hbody
    | error fault =>
      rcases resolveWith_error h with ⟨rfl, -⟩ | ⟨_, -, -, href⟩ |
        ⟨-, key, -, -, ⟨-, -, rfl⟩ | ⟨-, hdescribe⟩ | ⟨e, -, hdescribe, -⟩⟩
      · exact hr
      · exact resolveRef_described hP (ih []) hr href
      · exact hr
      · exact (describe_described hP (ih _) hschema hr hdescribe).1
      · exact (describe_described hP (ih _) hschema hr hdescribe).1

omit hP in
private theorem wrap_described {m : RegistryM TypeId} (nullable : Bool)
    (h : (outcome m r).2.Described document P) :
    (outcome (m >>= wrap nullable) r).2.Described document P := by
  rw [outcome_bind]
  cases hm : outcome m r with
  | mk x s =>
    rw [hm] at h
    cases x with
    | error fault => exact h
    | ok id =>
      cases nullable with
      | false => exact h
      | true =>
        dsimp only
        rw [wrap, if_pos rfl]
        rcases outcome_optional id s with ⟨_, -, hout⟩ | ⟨-, ⟨_, -, hout⟩ | ⟨-, hout⟩⟩
        · exact hout ▸ h
        · exact hout ▸ h
        · exact hout ▸ h.add rfl (.optional id)

private theorem call_described (hr : r.Described document P) (call : Call)
    (hcall : P call.schema.orEmpty) : (r.afterCall document call).Described document P := by
  obtain ⟨preferred, schema, nullable, hint⟩ := call
  rcases resolve_cases document preferred schema nullable hint with ⟨-, h⟩ | ⟨text, -, -, h⟩
  · rw [Registry.afterCall, Call.run, h]
    have horEmpty : P schema.orEmpty.orEmpty := hP.orEmpty hcall
    exact wrap_described nullable (resolveWith_described hP _ [] horEmpty hr rfl)
  · rw [Registry.afterCall, Call.run, h]
    refine wrap_described nullable ?_
    rw [outcome_claim_register]
    cases hbody : outcome (describe document (resolveWith document
        (resolveDepth document schema.orEmpty) []) schema.orEmpty (r.nameFor text))
        (r.named (r.nameFor text)) with
    | mk x s =>
      have hnamed : (r.named (r.nameFor text)).Described document P := hr.add rfl .waiting
      obtain ⟨hs, he⟩ :=
        describe_described hP (resolveWith_described hP _ []) hcall hnamed hbody
      cases x with
      | error fault => exact hs
      | ok e =>
        have hbody' : IsDescribed document P e.body := he rfl
        exact hs.replace _ hbody'

/-- After all calls, successful or not, the bodies of all types are described by schemas with what
the document and the schemas of the calls hand on. -/
theorem history_described (calls : List Call) (hcalls : ∀ call ∈ calls, P call.schema.orEmpty) :
    (Registry.history document calls).Described document P := by
  have hall : ∀ r : Registry, r.Described document P →
      (r.afterCalls document calls).Described document P := by
    induction calls with
    | nil => exact fun r hr => hr
    | cons call calls ih =>
      obtain ⟨hcall, hcalls⟩ := List.forall_mem_cons.mp hcalls
      exact fun r hr => ih hcalls _ (call_described hP hr call hcall)
  exact hall _ .empty

end OpenApiClient.Schema

import OpenApiClient.Proofs.ResolutionSteps

/-! # The registry only grows

Whether a resolution succeeds or fails, the types that were there before it are the same after it,
and what was remembered is remembered. Only a type that the resolution has itself registered is
filled in afterwards. -/
namespace OpenApiClient.Schema

open RegistryM

variable {document schema : Value} {hint : String} {resolve : Resolver} {r s t : Registry}

/-- The second registry has everything that the first one has. -/
structure Registry.Extends (r s : Registry) : Prop where
  size : r.entries.size ≤ s.entries.size
  entry {id : TypeId} : id < r.entries.size → s.entries[id]? = r.entries[id]?
  anonymous : r.anonymous <:+ s.anonymous
  refs : r.refs <:+ s.refs
  names : r.names <:+ s.names
  log : r.log <:+ s.log
  shape {key : String} {id : TypeId} :
    r.anonymous.lookup key = some id → s.anonymous.lookup key = some id
  reference {text : String} {id : TypeId} :
    r.refs.lookup text = some id → s.refs.lookup text = some id
  shape_new {key : String} {id : TypeId} :
    (key, id) ∈ s.anonymous → (key, id) ∈ r.anonymous ∨ r.entries.size ≤ id
  reference_new {text : String} {id : TypeId} :
    (text, id) ∈ s.refs → (text, id) ∈ r.refs ∨ r.entries.size ≤ id

theorem mem_of_lookup {α : Type} {entries : List (String × α)} {key : String} {a : α}
    (h : entries.lookup key = some a) : (key, a) ∈ entries := by
  obtain ⟨before, after, rfl, -⟩ := List.lookup_eq_some_iff.mp h
  exact List.mem_append_right _ List.mem_cons_self

private theorem lookup_cons_of_none {α : Type} {entries : List (String × α)} {key other : String}
    {a b : α}
    (hkey : entries.lookup key = none) (h : entries.lookup other = some a) :
    ((key, b) :: entries).lookup other = some a := by
  have hne : other ≠ key := by
    rintro rfl
    simp [hkey] at h
  rwa [List.lookup_cons, beq_false_of_ne hne]

namespace Registry.Extends

theorem refl (r : Registry) : r.Extends r :=
  ⟨Nat.le_refl _, fun _ => rfl, List.suffix_refl _, List.suffix_refl _, List.suffix_refl _,
    List.suffix_refl _, id, id, .inl, .inl⟩

theorem trans (h : r.Extends s) (h' : s.Extends t) : r.Extends t where
  size := Nat.le_trans h.size h'.size
  entry hid := (h'.entry (Nat.lt_of_lt_of_le hid h.size)).trans (h.entry hid)
  anonymous := h.anonymous.trans h'.anonymous
  refs := h.refs.trans h'.refs
  names := h.names.trans h'.names
  log := h.log.trans h'.log
  shape hkey := h'.shape (h.shape hkey)
  reference htext := h'.reference (h.reference htext)
  shape_new hmem := (h'.shape_new hmem).elim h.shape_new fun hid => .inr (Nat.le_trans h.size hid)
  reference_new hmem :=
    (h'.reference_new hmem).elim h.reference_new fun hid => .inr (Nat.le_trans h.size hid)

theorem body? (h : r.Extends s) {id : TypeId} (hid : id < r.entries.size) :
    s.body? id = r.body? id := by
  rw [Registry.body?, Registry.body?, h.entry hid]

theorem push (h : r.Extends s) (e : Entry) : r.Extends (s.push e) :=
  { h with
    size := by
      simp only [Registry.size_push]
      exact Nat.le_succ_of_le h.size
    entry := by
      intro id hid
      have hs := Nat.lt_of_lt_of_le hid h.size
      rw [Registry.push, Array.getElem?_push_lt hs, ← h.entry hid, Array.getElem?_eq_getElem hs] }

theorem withName (h : r.Extends s) (name : String) : r.Extends (s.withNames (name :: s.names)) :=
  { h with names := h.names.trans (List.suffix_cons name s.names) }

theorem logged (h : r.Extends s) (record : LogRecord) : r.Extends (s.logged record) :=
  { h with log := h.log.trans (List.suffix_cons record s.log) }

theorem replace (h : r.Extends s) {id : TypeId} (hid : r.entries.size ≤ id) (e : Entry) :
    r.Extends (s.replace id e) :=
  { h with
    size := by simpa using h.size
    entry := by
      intro other hother
      have hne : id ≠ other := Nat.ne_of_gt (Nat.lt_of_lt_of_le hother hid)
      simp only [Registry.replace, Array.getElem?_setIfInBounds, hne, if_false]
      exact h.entry hother }

theorem settled (h : r.Extends s) {key : String} (hkey : r.anonymous.lookup key = none)
    (e : Entry) :
    r.Extends (s.settled key e) :=
  { h.push e with
    anonymous := h.anonymous.trans (List.suffix_cons _ s.anonymous)
    shape := by
      intro other id hother
      have hne : other ≠ key := by
        rintro rfl
        simp [hkey] at hother
      rw [Registry.settled, List.lookup_cons, beq_false_of_ne hne]
      exact h.shape hother
    shape_new := by
      intro other id hmem
      rcases List.mem_cons.mp hmem with heq | hmem
      · exact .inr ((Prod.mk.inj heq).2 ▸ h.size)
      · exact h.shape_new hmem }

theorem named (r : Registry) (name : String) : r.Extends (r.named name) :=
  ((refl r).withName name).push _

theorem opened {reference name : String} (hnew : r.refs.lookup reference = none) :
    r.Extends (r.opened reference name) :=
  { named r name with
    refs := List.suffix_cons _ _
    reference := lookup_cons_of_none hnew
    reference_new := by
      intro text id hmem
      rcases List.mem_cons.mp hmem with heq | hmem
      · exact .inr (Nat.le_of_eq (Prod.mk.inj heq).2.symm)
      · exact .inl hmem }

private theorem settles {key : String} {e : Entry} (h : r.Extends s)
    (hkey : r.anonymous.lookup key = none) (hsettles : Settles schema hint key e s t) :
    r.Extends t := by
  cases hsettles with
  | unnamed hneeds => exact h.settled hkey e
  | named text hneeds htext => exact (h.withName _).settled hkey _

end Registry.Extends

/-- Resolving leaves what was registered before as it is. -/
def Growing (resolve : Resolver) : Prop :=
  ∀ {schema hint r x t}, outcome (resolve schema hint) r = (x, t) → r.Extends t

theorem resolvePart_extends (h : Growing resolve) {part : Part} {x : Except Fault TypeId}
    (hpart : outcome (resolvePart resolve part) r = (x, t)) : r.Extends t := by
  cases x with
  | ok id => exact h (resolvePart_ok hpart).1
  | error fault =>
    rcases resolvePart_error hpart with hresolve | ⟨id, hresolve, -⟩
    · exact h hresolve
    · exact h hresolve

theorem parts_extends (h : Growing resolve) {parts : List Part} {x : Except Fault (List TypeId)}
    (hparts : outcome (parts.mapM (resolvePart resolve)) r = (x, t)) : r.Extends t := by
  have hok : ∀ {parts : List Part} {r ids t},
      outcome (parts.mapM (resolvePart resolve)) r = (.ok ids, t) → r.Extends t := by
    intro parts
    induction parts with
    | nil =>
      intro r ids t hparts
      simp only [mapM_nil_outcome, Prod.mk.injEq] at hparts
      exact hparts.2 ▸ .refl r
    | cons part rest ih =>
      intro r ids t hparts
      obtain ⟨id, s, others, hpart, hrest, -⟩ := mapM_cons_ok_iff.mp hparts
      exact (resolvePart_extends h hpart).trans (ih hrest)
  cases x with
  | ok ids => exact hok hparts
  | error fault =>
    obtain ⟨before, part, after, ids, s, -, hbefore, hpart⟩ := mapM_error hparts
    exact (hok hbefore).trans (resolvePart_extends h hpart)

theorem describe_extends (h : Growing resolve) {x : Except Fault Entry}
    (hdescribe : outcome (describe document resolve schema hint) r = (x, t)) : r.Extends t := by
  cases x with
  | ok e =>
    obtain ⟨_, _, _, -, -, hparts, -⟩ := describe_ok_iff.mp hdescribe
    exact parts_extends h hparts
  | error fault =>
    rcases describe_error hdescribe with ⟨rfl, -⟩ | ⟨_, -, hparts⟩
    · exact .refl _
    · exact parts_extends h hparts

private theorem resolveRef_extends (h : Growing resolve) {reference : Value} {x : Except Fault TypeId}
    (href : outcome (resolveRef document resolve reference) r = (x, t)) : r.Extends t := by
  cases x with
  | ok id =>
    obtain ⟨text, -, ⟨-, rfl⟩ | ⟨target, e, s, hnew, -, hdescribe, rfl, rfl⟩⟩ := resolveRef_ok href
    · exact .refl _
    · have hs := (Registry.Extends.opened hnew).trans (describe_extends h hdescribe)
      exact (hs.replace (Nat.le_refl _) _).logged _
  | error fault =>
    rcases resolveRef_error href with ⟨rfl, -⟩ | ⟨text, target, -, hnew, -, hdescribe⟩
    · exact .refl _
    · exact (Registry.Extends.opened hnew).trans (describe_extends h hdescribe)

theorem resolveWith_growing (document : Value) (fuel : Nat) (active : List (Value × Nat)) :
    Growing (resolveWith document fuel active) := by
  induction fuel generalizing active with
  | zero =>
    intro schema hint r x t h
    simp only [resolveWith, outcome_throw, Prod.mk.injEq] at h
    exact h.2 ▸ .refl r
  | succ fuel ih =>
    intro schema hint r x t h
    cases x with
    | ok id =>
      rcases resolveWith_ok h with ⟨_, -, -, href⟩ |
        ⟨-, key, -, ⟨-, rfl⟩ | ⟨e, s, hnew, -, hdescribe, -, hsettles⟩⟩
      · exact resolveRef_extends (ih []) href
      · exact .refl _
      · exact (describe_extends (ih _) hdescribe).settles hnew hsettles
    | error fault =>
      rcases resolveWith_error h with ⟨rfl, -⟩ | ⟨_, -, -, href⟩ |
        ⟨-, key, -, -, ⟨-, -, rfl⟩ | ⟨-, hdescribe⟩ | ⟨e, -, hdescribe, -⟩⟩
      · exact .refl _
      · exact resolveRef_extends (ih []) href
      · exact .refl _
      · exact describe_extends (ih _) hdescribe
      · exact describe_extends (ih _) hdescribe

theorem optional_extends (inner : TypeId) (r : Registry) :
    r.Extends (outcome (optional inner) r).2 := by
  rcases outcome_optional inner r with ⟨_, -, h⟩ | ⟨-, ⟨_, -, h⟩ | ⟨hnew, h⟩⟩
  · exact h ▸ .refl r
  · exact h ▸ .refl r
  · exact h ▸ (Registry.Extends.refl r).settled hnew _

theorem wrap_extends (nullable : Bool) (id : TypeId) (r : Registry) :
    r.Extends (outcome (wrap nullable id) r).2 := by
  cases nullable with
  | false => exact .refl r
  | true => exact optional_extends id r

/-- A call leaves what was registered before as it is, also when it fails. -/
theorem resolve_extends (document : Value) (preferred : Option String) (schema : Value)
    (nullable : Bool) (hint : String) (r : Registry) :
    r.Extends (outcome (Schema.resolve document preferred schema nullable hint) r).2 := by
  have hwrap : ∀ m : RegistryM TypeId, r.Extends (outcome m r).2 →
      r.Extends (outcome (m >>= wrap nullable) r).2 := by
    intro m hm
    rw [outcome_bind]
    cases h : outcome m r with
    | mk x s =>
      rw [h] at hm
      cases x with
      | ok id => exact hm.trans (wrap_extends nullable id s)
      | error fault => exact hm
  rcases resolve_cases document preferred schema nullable hint with ⟨-, h⟩ | ⟨text, -, -, h⟩
  · rw [h]
    exact hwrap _ (resolveWith_growing document _ [] rfl)
  · rw [h]
    refine hwrap _ ?_
    rw [outcome_claim_register]
    cases hbody : outcome (describe document _ schema.orEmpty (r.nameFor text))
        (r.named (r.nameFor text)) with
    | mk x s =>
      have hs := (Registry.Extends.named r _).trans
        (describe_extends (resolveWith_growing document _ []) hbody)
      cases x with
      | ok e => exact hs.replace (Nat.le_refl _) _
      | error fault => exact hs

end OpenApiClient.Schema

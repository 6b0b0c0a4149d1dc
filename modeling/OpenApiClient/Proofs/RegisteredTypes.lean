import OpenApiClient.Proofs.AlikeLayers
import OpenApiClient.Proofs.RegistryGrowth

/-! # The types that a registry knows

A registry knows a type by the shape or the reference that it was registered for. It is sound when
each of these types has the body of a schema of that shape, or of the target of that reference,
with the types in it known as the parts of that schema. Only a reference that is open may wait for
its body. Resolving keeps a registry sound. -/
namespace OpenApiClient.Schema

open RegistryM

variable {document schema v : Value} {hint key text : String} {resolve : Resolver}
  {r s t : Registry} {id limit : TypeId} {opens : List TypeId}

/-- What a type without a preferred name is registered for. -/
inductive Identity
  | reference (text : String)
  | shape (key : String)
  deriving DecidableEq

def identityOf (schema : Value) : Except Fault Identity := do
  if ← isReference schema then return .reference (← (← schema.require "$ref").asText)
  else return .shape (← structuralKey schema)

theorem identityOf_ok_iff {ι : Identity} :
    identityOf schema = .ok ι ↔
      (isReference schema = .ok true ∧ ∃ text, schema.require "$ref" = .ok (.text text) ∧
        ι = .reference text) ∨
      isReference schema = .ok false ∧ ∃ key, structuralKey schema = .ok key ∧ ι = .shape key := by
  simp only [identityOf, except_bind_ok_iff]
  constructor
  · rintro ⟨isRef, hisRef, h⟩
    cases isRef with
    | true =>
      simp only [if_true, except_bind_ok_iff, except_pure_ok_iff] at h
      obtain ⟨target, htarget, text, htext, rfl⟩ := h
      obtain rfl := asText_ok_iff.mp htext
      exact .inl ⟨hisRef, text, htarget, rfl⟩
    | false =>
      simp only [Bool.false_eq_true, if_false, except_bind_ok_iff, except_pure_ok_iff] at h
      obtain ⟨key, hkey, rfl⟩ := h
      exact .inr ⟨hisRef, key, hkey, rfl⟩
  · rintro (⟨hisRef, text, hrequire, rfl⟩ | ⟨hisRef, key, hkey, rfl⟩)
    · refine ⟨true, hisRef, ?_⟩
      simp only [if_true, except_bind_ok_iff, except_pure_ok_iff]
      exact ⟨_, hrequire, text, rfl, rfl⟩
    · refine ⟨false, hisRef, ?_⟩
      simp only [Bool.false_eq_true, if_false, except_bind_ok_iff, except_pure_ok_iff]
      exact ⟨key, hkey, rfl⟩

namespace Registry

def Knows (r : Registry) : Identity → TypeId → Prop
  | .reference text, id => (text, id) ∈ r.refs
  | .shape key, id => (key, id) ∈ r.anonymous

def recalled (r : Registry) : Identity → Option TypeId
  | .reference text => r.refs.lookup text
  | .shape key => r.anonymous.lookup key

theorem knows_of_recalled {ι : Identity} (h : r.recalled ι = some id) : r.Knows ι id := by
  cases ι with
  | reference text => exact mem_of_lookup h
  | shape key => exact mem_of_lookup h

theorem knows_opened_iff {name : String} {ι : Identity} : (r.opened text name).Knows ι id ↔
    r.Knows ι id ∨ ι = .reference text ∧ id = r.entries.size := by
  cases ι with
  | reference other =>
    have hrefs : (r.opened text name).refs = (text, r.entries.size) :: r.refs := rfl
    rw [Knows, hrefs, List.mem_cons, Prod.mk.injEq, Identity.reference.injEq, or_comm]
    rfl
  | shape key => exact ⟨.inl, fun h => h.elim (fun hold => hold) fun hnew => nomatch hnew.1⟩

theorem knows_remembered_iff {i : TypeId} (hanonymous : s.anonymous = (key, i) :: r.anonymous)
    (hrefs : s.refs = r.refs) {ι : Identity} : s.Knows ι id ↔
      r.Knows ι id ∨ ι = .shape key ∧ id = i := by
  cases ι with
  | reference other =>
    rw [Knows, hrefs]
    exact ⟨.inl, fun h => h.elim (fun hold => hold) fun hnew => nomatch hnew.1⟩
  | shape other =>
    rw [Knows, hanonymous, List.mem_cons, Prod.mk.injEq, Identity.shape.injEq, or_comm]
    rfl

theorem Extends.knows (h : r.Extends s) {ι : Identity} (hι : r.Knows ι id) : s.Knows ι id := by
  cases ι with
  | reference text => exact h.refs.subset hι
  | shape key => exact h.anonymous.subset hι

theorem Extends.recalled (h : r.Extends s) {ι : Identity} (hι : r.recalled ι = some id) :
    s.recalled ι = some id := by
  cases ι with
  | reference text => exact h.reference hι
  | shape key => exact h.shape hι

theorem Extends.knows_new (h : r.Extends s) {ι : Identity} (hι : s.Knows ι id) :
    r.Knows ι id ∨ r.entries.size ≤ id := by
  cases ι with
  | reference text => exact h.reference_new hι
  | shape key => exact h.shape_new hι

end Registry

def Fills (table : Identity → Option TypeId) (parts : List Part) (ids : List TypeId) : Prop :=
  List.Forall₂ (fun p id => ∃ ι, identityOf p.schema.orEmpty = .ok ι ∧ table ι = some id) parts ids

/-- Whether a type is that of a schema: it has the body of the schema's layer, filled with types
below a limit that the registry knows as the parts. -/
inductive Depicts (document : Value) (r : Registry) (limit : TypeId) (schema : Value)
    (id : TypeId) : Prop
  | intro {hint : String} {outer : Layer} {ids : List TypeId} {table : Identity → Option TypeId}
      (hlayer : layer document schema hint = .ok outer)
      (hbody : r.body? id = some (outer.frame.fill ids)) (hids : Fills table outer.parts ids)
      (htable : ∀ {ι i}, table ι = some i → r.Knows ι i ∧ i < limit)

theorem Depicts.mono {limit' : TypeId} (h : Depicts document r limit schema id)
    (hbody : s.body? id = r.body? id) (hknows : ∀ {ι i}, r.Knows ι i → s.Knows ι i)
    (hlimit : limit ≤ limit') : Depicts document s limit' schema id := by
  obtain ⟨hlayer, hr, hids, htable⟩ := h
  exact ⟨hlayer, hbody.trans hr, hids, fun hι =>
    ⟨hknows (htable hι).1, Nat.lt_of_lt_of_le (htable hι).2 hlimit⟩⟩

/-- Whether what a registry knows is right, but for the references that are open. -/
structure Sound (document : Value) (r : Registry) (opens : List TypeId) : Prop where
  bound {ι : Identity} {id : TypeId} : r.Knows ι id → id < r.entries.size
  single {ι κ : Identity} {id : TypeId} : r.Knows ι id → r.Knows κ id → ι = κ
  shape {v : Value} {key : String} {id : TypeId} : structuralKey v = .ok key →
    r.Knows (.shape key) id → ∃ w, Tame document w ∧ identityOf w = .ok (.shape key) ∧
      Depicts document r id w id
  reference {text : String} {id : TypeId} : r.Knows (.reference text) id → id ∈ opens ∨
    ∃ target, lookup document text = .ok target ∧ Tame document target ∧
      Depicts document r r.entries.size target id
  optional {inner id : TypeId} : r.Knows (.shape (optionalKey inner)) id →
    r.body? id = some (.optional inner)

/-- The key of an optional type is no text of a value. -/
theorem structuralKey_ne_optionalKey {inner : TypeId} (h : structuralKey v = .ok key) :
    key ≠ optionalKey inner := by
  rw [structuralKey_eq] at h
  cases hform : form false v with
  | error fault => simp [hform, Except.map] at h
  | ok w =>
    simp only [hform, Except.map, Except.ok.injEq] at h
    obtain ⟨c, rest, hlist, hc, -⟩ := Value.written_head w
    have hoptional : (optionalKey inner).toList = 'o' :: ("ptional:" ++ toString inner).toList := by
      simp [optionalKey]
    rintro rfl
    rw [h, hoptional] at hlist
    exact hc ((List.cons.inj hlist).1 ▸ by decide)

theorem optionalKey_injective {inner other : TypeId} (h : optionalKey inner = optionalKey other) :
    inner = other := by
  have htexts := congrArg String.toList h
  rw [optionalKey, optionalKey, String.toList_append, String.toList_append] at htexts
  exact Nat.repr_injective (String.toList_injective (List.append_cancel_left htexts))

theorem sound_empty : Sound document {} [] where
  bound h := by rename_i ι _; cases ι <;> cases h
  single h := by rename_i ι _ _; cases ι <;> cases h
  shape _ h := by cases h
  reference h := by cases h
  optional h := by cases h

/-- A registry that knows the same types and has further ones is as sound. -/
theorem Sound.grow (h : Sound document r opens) (hgrown : r.Extends s)
    (hanonymous : s.anonymous = r.anonymous) (hrefs : s.refs = r.refs) :
    Sound document s opens := by
  have hknows : ∀ {ι id}, s.Knows ι id ↔ r.Knows ι id := by
    rintro (_ | _) id
    · simp [Registry.Knows, hrefs]
    · simp [Registry.Knows, hanonymous]
  constructor
  · exact fun hι => Nat.lt_of_lt_of_le (h.bound (hknows.mp hι)) hgrown.size
  · exact fun hι hκ => h.single (hknows.mp hι) (hknows.mp hκ)
  · intro v key id hkey hid
    obtain ⟨w, htame, hw, hdepicts⟩ := h.shape hkey (hknows.mp hid)
    exact ⟨w, htame, hw, hdepicts.mono (hgrown.body? (h.bound (hknows.mp hid))) hknows.mpr
      (Nat.le_refl _)⟩
  · intro text id hid
    rcases h.reference (hknows.mp hid) with hopen | ⟨target, htarget, htame, hdepicts⟩
    · exact .inl hopen
    · exact .inr ⟨target, htarget, htame, hdepicts.mono (hgrown.body? (h.bound (hknows.mp hid)))
        hknows.mpr hgrown.size⟩
  · intro inner id hid
    rw [hgrown.body? (h.bound (hknows.mp hid))]
    exact h.optional (hknows.mp hid)

theorem Sound.weaken (h : Sound document r opens) (id : TypeId) :
    Sound document r (id :: opens) where
  bound := h.bound
  single := h.single
  shape := h.shape
  reference hid := (h.reference hid).imp_left (List.mem_cons_of_mem _)
  optional := h.optional

theorem body?_push_lt (e : Entry) (hentries : t.entries = s.entries.push e)
    (hid : id < s.entries.size) : t.body? id = s.body? id := by
  rw [Registry.body?, Registry.body?, hentries, Array.getElem?_push_lt hid,
    Array.getElem?_eq_getElem hid]

theorem body?_push_self (e : Entry) (hentries : t.entries = s.entries.push e) :
    t.body? s.entries.size = some e.body := by
  rw [Registry.body?, hentries, Array.getElem?_push_size]
  rfl

/-- A registry stays sound when a new type is remembered for a reference that is open, or for a
shape that it is the type of. -/
theorem Sound.add (h : Sound document s opens) {κ : Identity} {opens' : List TypeId}
    (hsize : t.entries.size = s.entries.size + 1)
    (hold : ∀ {ι id}, s.Knows ι id → t.Knows ι id)
    (hcases : ∀ {ι id}, t.Knows ι id → s.Knows ι id ∨ ι = κ ∧ id = s.entries.size)
    (hbody : ∀ {id}, id < s.entries.size → t.body? id = s.body? id) (hopens : opens ⊆ opens')
    (hreference : ∀ {text}, κ = .reference text → s.entries.size ∈ opens')
    (hshape : ∀ {key v}, κ = .shape key → structuralKey v = .ok key → ∃ w, Tame document w ∧
      identityOf w = .ok (.shape key) ∧ Depicts document t s.entries.size w s.entries.size)
    (hoptional : ∀ {inner}, κ = .shape (optionalKey inner) →
      t.body? s.entries.size = some (.optional inner)) : Sound document t opens' := by
  constructor
  · intro ι id hι
    rw [hsize]
    rcases hcases hι with hι | ⟨-, rfl⟩
    · exact Nat.lt_succ_of_lt (h.bound hι)
    · exact Nat.lt_succ_self _
  · intro ι ι' id hι hι'
    -- What was known before has types below the new one.
    rcases hcases hι with hι | ⟨rfl, rfl⟩
    · rcases hcases hι' with hι' | ⟨-, rfl⟩
      · exact h.single hι hι'
      · exact absurd (h.bound hι) (Nat.lt_irrefl _)
    · rcases hcases hι' with hι' | ⟨rfl, -⟩
      · exact absurd (h.bound hι') (Nat.lt_irrefl _)
      · rfl
  · intro v key id hkey hid
    rcases hcases hid with hid | ⟨hnew, rfl⟩
    · obtain ⟨w, htame, hw, hdepicts⟩ := h.shape hkey hid
      exact ⟨w, htame, hw, hdepicts.mono (hbody (h.bound hid)) hold (Nat.le_refl _)⟩
    · exact hshape hnew.symm hkey
  · intro text id hid
    rcases hcases hid with hid | ⟨hnew, rfl⟩
    · rcases h.reference hid with hopen | ⟨target, htarget, htame, hdepicts⟩
      · exact .inl (hopens hopen)
      · exact .inr ⟨target, htarget, htame,
          hdepicts.mono (hbody (h.bound hid)) hold (hsize ▸ Nat.le_succ _)⟩
    · exact .inl (hreference hnew.symm)
  · intro inner id hid
    rcases hcases hid with hid | ⟨hnew, rfl⟩
    · rw [hbody (h.bound hid)]
      exact h.optional hid
    · exact hoptional hnew.symm

theorem Sound.remember (h : Sound document s opens) {e : Entry}
    (hentries : t.entries = s.entries.push e)
    (hanonymous : t.anonymous = (key, s.entries.size) :: s.anonymous) (hrefs : t.refs = s.refs)
    (hshape : ∀ {v}, structuralKey v = .ok key → ∃ w, Tame document w ∧
      identityOf w = .ok (.shape key) ∧ Depicts document t s.entries.size w s.entries.size)
    (hoptional : ∀ {inner}, key = optionalKey inner → e.body = .optional inner) :
    Sound document t opens := by
  have hsize : t.entries.size = s.entries.size + 1 := by rw [hentries, Array.size_push]
  have hknows : ∀ {ι id}, t.Knows ι id ↔ s.Knows ι id ∨ ι = .shape key ∧ id = s.entries.size :=
    Registry.knows_remembered_iff hanonymous hrefs
  refine h.add hsize (fun hι => hknows.mpr (.inl hι)) hknows.mp (body?_push_lt e hentries)
    (List.Subset.refl _) ?_ ?_ ?_
  · intro text hreference
    cases hreference
  · intro other v hother hkey
    obtain rfl := Identity.shape.inj hother
    exact hshape hkey
  · intro inner hinner
    rw [body?_push_self e hentries, hoptional (Identity.shape.inj hinner)]

theorem Sound.opened (h : Sound document r opens) {name : String}
    (hnew : r.refs.lookup text = none) :
    Sound document (r.opened text name) (r.entries.size :: opens) := by
  have hgrown : r.Extends (r.opened text name) := .opened hnew
  have hsize : (r.opened text name).entries.size = r.entries.size + 1 := by
    simp [Registry.opened, Registry.push, Registry.withNames]
  refine h.add hsize hgrown.knows Registry.knows_opened_iff.mp hgrown.body?
    (List.subset_cons_self _ _) (fun _ => List.mem_cons_self) ?_ ?_
  · intro key v hshape
    cases hshape
  · intro inner hshape
    cases hshape

/-- A registry stays sound when a type is filled in that it knows for a reference, if at all. -/
theorem Sound.replace (h : Sound document s (id :: opens)) (e : Entry)
    (hknown : ∀ {ι}, s.Knows ι id → ∃ text target, ι = .reference text ∧
      lookup document text = .ok target ∧ Tame document target ∧
      Depicts document (s.replace id e) s.entries.size target id) :
    Sound document (s.replace id e) opens := by
  have hbody : ∀ {other}, other ≠ id → (s.replace id e).body? other = s.body? other := by
    intro other hne
    simp only [Registry.body?, Registry.replace, Array.getElem?_setIfInBounds, hne.symm, if_false]
  have hknows : ∀ {ι other}, (s.replace id e).Knows ι other ↔ s.Knows ι other := by
    rintro (_ | _) other
    · exact Iff.rfl
    · exact Iff.rfl
  have hne : ∀ {key other}, s.Knows (.shape key) other → other ≠ id := by
    rintro key other hid rfl
    obtain ⟨_, _, hshape, -⟩ := hknown hid
    cases hshape
  have hsize : (s.replace id e).entries.size = s.entries.size := by simp
  constructor
  · exact fun hι => hsize ▸ h.bound (hknows.mp hι)
  · exact fun hι hκ => h.single (hknows.mp hι) (hknows.mp hκ)
  · intro v key other hkey hid
    obtain ⟨w, htame, hw, hdepicts⟩ := h.shape hkey (hknows.mp hid)
    exact ⟨w, htame, hw, hdepicts.mono (hbody (hne (hknows.mp hid))) hknows.mpr (Nat.le_refl _)⟩
  · intro text other hid
    by_cases heq : other = id
    · subst heq
      obtain ⟨_, target, hreference, htarget, htame, hdepicts⟩ := hknown (hknows.mp hid)
      obtain rfl := Identity.reference.inj hreference
      exact .inr ⟨target, htarget, htame, hsize ▸ hdepicts⟩
    · rcases h.reference (hknows.mp hid) with hopen | ⟨target, htarget, htame, hdepicts⟩
      · exact .inl ((List.mem_cons.mp hopen).resolve_left heq)
      · exact .inr ⟨target, htarget, htame,
          hdepicts.mono (hbody heq) hknows.mpr (Nat.le_of_eq hsize.symm)⟩
  · intro inner other hid
    rw [hbody (hne (hknows.mp hid))]
    exact h.optional (hknows.mp hid)

def Describes (document : Value) (r : Registry) (schema : Value) (body : Body) : Prop :=
  ∃ hint outer ids, layer document schema hint = .ok outer ∧ body = outer.frame.fill ids ∧
    Fills r.recalled outer.parts ids

theorem Describes.depicts {body : Body} (h : Describes document s schema body)
    (hsound : Sound document s opens) (hbody : t.body? id = some body)
    (hknows : ∀ {ι i}, s.Knows ι i → t.Knows ι i) (hlimit : s.entries.size ≤ limit) :
    Depicts document t limit schema id := by
  obtain ⟨hint, outer, ids, hlayer, rfl, hids⟩ := h
  exact ⟨hlayer, hbody, hids, fun hι => ⟨hknows (Registry.knows_of_recalled hι),
    Nat.lt_of_lt_of_le (hsound.bound (Registry.knows_of_recalled hι)) hlimit⟩⟩

/-- Whether resolving keeps registries sound and gives the types that they then recall. -/
def Faithful (document : Value) (resolve : Resolver) : Prop :=
  ∀ {schema hint r id t opens}, Tame document schema.orEmpty → Sound document r opens →
    outcome (resolve schema hint) r = (.ok id, t) →
    Sound document t opens ∧ ∃ ι, identityOf schema.orEmpty = .ok ι ∧ t.recalled ι = some id

private theorem parts_sound (hgrowing : Growing resolve) (hfaithful : Faithful document resolve)
    {parts : List Part} {ids : List TypeId} (htame : ∀ p ∈ parts, Tame document p.schema.orEmpty)
    (hsound : Sound document r opens)
    (h : outcome (parts.mapM (resolvePart resolve)) r = (.ok ids, t)) :
    Sound document t opens ∧ Fills t.recalled parts ids := by
  induction parts generalizing r ids with
  | nil =>
    simp only [mapM_nil_outcome, Prod.mk.injEq, Except.ok.injEq] at h
    obtain ⟨rfl, rfl⟩ := h
    exact ⟨hsound, .nil⟩
  | cons part rest ih =>
    obtain ⟨id, s, others, hpart, hrest, rfl⟩ := mapM_cons_ok_iff.mp h
    obtain ⟨htamePart, htameRest⟩ := List.forall_mem_cons.mp htame
    obtain ⟨hs, ι, hι, hid⟩ := hfaithful htamePart hsound (resolvePart_ok hpart).1
    obtain ⟨ht, hothers⟩ := ih htameRest hs hrest
    exact ⟨ht, .cons ⟨ι, hι, (parts_extends hgrowing hrest).recalled hid⟩ hothers⟩

theorem describe_sound (hdocument : document.IsJson) (hgrowing : Growing resolve)
    (hfaithful : Faithful document resolve) (htame : Tame document schema)
    (hsound : Sound document r opens) {e : Entry}
    (h : outcome (describe document resolve schema hint) r = (.ok e, t)) :
    Sound document t opens ∧ Describes document t schema e.body := by
  obtain ⟨description, outer, ids, -, houter, hids, rfl⟩ := describe_ok_iff.mp h
  obtain ⟨ht, hfills⟩ := parts_sound hgrowing hfaithful (fun p hp =>
    htame.leads hdocument (.part ⟨hint, outer, houter, p, hp, rfl⟩)) hsound hids
  exact ⟨ht, hint, outer, ids, houter, rfl, hfills⟩

end OpenApiClient.Schema

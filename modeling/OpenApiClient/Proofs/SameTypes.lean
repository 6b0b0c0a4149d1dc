import OpenApiClient.Proofs.FreeResolution
import OpenApiClient.Proofs.RegisteredTypes
import OpenApiClient.Proofs.RenderedTypes
import OpenApiClient.Proofs.TitledTypes

/-! # Registries with the same types

What is written of a type, what stands behind it and what documents it depend on the entries of the
registry alone. A schema whose type is remembered gives that type again, and a type that is wrapped
stands behind the one that admits null. -/
namespace OpenApiClient.Schema

open RegistryM

variable {document v : Value} {hint : String} {r s u : Registry} {i j : TypeId}

theorem outcome_resolve (document schema : Value) (hint : String) (r : Registry) :
    outcome (Schema.resolve document none schema false hint) r =
      outcome (resolveFreely document (resolveDepth document schema.orEmpty) schema.orEmpty hint)
        r := by
  have hwrap : wrap false = pure := rfl
  rw [resolve_anonymous document rfl, hwrap, bind_pure, resolveAnonymous, resolveWith_nil_eq_freely]

/-! ## Types that are remembered -/

def Registry.Recalls (r : Registry) (v : Value) (i : TypeId) : Prop :=
  ∃ ι, identityOf v.orEmpty = .ok ι ∧ r.recalled ι = some i

theorem recalls_of_resolveWith {fuel : Nat} {active : List (Value × Nat)}
    (h : outcome (resolveWith document fuel active v hint) r = (.ok i, s)) : s.Recalls v i := by
  have hresolved : Task.resolved document ⟨fuel, active, v, hint, r⟩ = (.ok i, s) := h
  cases fuel with
  | zero => simp [resolveWith] at h
  | succ fuel =>
    rcases resolveWith_ok h with ⟨reference, hisRef, hreference, href⟩ | ⟨hisRef, key, hkey, -⟩
    · obtain ⟨text, rfl, -⟩ := resolveRef_ok href
      exact ⟨.reference text, identityOf_ok_iff.mpr (.inl ⟨hisRef, text, hreference, rfl⟩),
        Task.IsReference.remembered ⟨hisRef, hreference⟩ hresolved⟩
    · exact ⟨.shape key, identityOf_ok_iff.mpr (.inr ⟨hisRef, key, hkey, rfl⟩),
        Task.IsShape.remembered ⟨hisRef, hkey⟩ hresolved⟩

theorem recalls_of_resolve (h : outcome (Schema.resolve document none v false hint) r = (.ok i, s)) :
    s.Recalls v i := by
  rw [outcome_resolve, ← resolveWith_nil_eq_freely] at h
  obtain ⟨ι, hι, hi⟩ := recalls_of_resolveWith h
  exact ⟨ι, Value.orEmpty_orEmpty v ▸ hι, hi⟩

theorem Registry.Recalls.logged (h : r.Recalls v i) (record : LogRecord) :
    (r.logged record).Recalls v i := by
  obtain ⟨ι, hι, hi⟩ := h
  exact ⟨ι, hι, by cases ι <;> exact hi⟩

/-- A schema whose type is remembered gives that type, and registers nothing but what wrapping it
does. -/
theorem Registry.Recalls.resolve (h : r.Recalls v i) (document : Value) (nullable : Bool)
    (hint : String) : outcome (Schema.resolve document none v nullable hint) r =
      outcome (wrap nullable i) r := by
  obtain ⟨ι, hι, hi⟩ := h
  have hpositive : 0 < resolveDepth document v.orEmpty := Nat.pow_pos (by omega)
  obtain ⟨fuel, hfuel⟩ := Nat.exists_eq_succ_of_ne_zero (Nat.pos_iff_ne_zero.mp hpositive)
  have hrecalled : outcome (resolveAnonymous document v.orEmpty hint) r = (.ok i, r) := by
    rw [resolveAnonymous, hfuel, resolveWith_nil_eq_freely]
    rw [← Value.orEmpty_orEmpty] at hι
    rcases identityOf_ok_iff.mp hι with ⟨hisRef, text, htext, rfl⟩ | ⟨hisRef, key, hkey, rfl⟩
    · exact (resolveFreely_reference hisRef htext).trans (resolveRef_known hi _)
    · exact resolveFreely_known hisRef hkey hi
  rw [resolve_anonymous document rfl, outcome_bind, hrecalled]

/-! ## Registries with the same types -/

/-- Whether two registries have the same types, and know the same types that admit null. -/
structure SameTypes (r s : Registry) : Prop where
  entries : s.entries = r.entries
  optional (inner : TypeId) :
    s.anonymous.lookup (optionalKey inner) = r.anonymous.lookup (optionalKey inner)

theorem SameTypes.refl (r : Registry) : SameTypes r r := ⟨rfl, fun _ => rfl⟩

theorem lookup_optionalKey_cons {v : Value} {key : String} (h : structuralKey v = .ok key)
    (memos : List (String × TypeId)) (inner : TypeId) :
    List.lookup (optionalKey inner) ((key, i) :: memos) = memos.lookup (optionalKey inner) := by
  have hne : (optionalKey inner == key) = false := by
    simpa using Ne.symm (structuralKey_ne_optionalKey h)
  rw [List.lookup_cons, hne]

theorem Registry.typeTextWith_congr (qualifier : String)
    (h : ∀ k ≤ i, s.entries[k]? = r.entries[k]?) (view : View) :
    s.typeTextWith qualifier view i = r.typeTextWith qualifier view i := by
  induction i using Nat.strongRecOn generalizing view with
  | ind i ih =>
    rw [typeTextWith, typeTextWith, entry, entry, h i (Nat.le_refl i)]
    cases r.entries[i]? with
    | none => rfl
    | some e =>
      simp only [bind, Except.bind]
      cases e.name with
      | some name => rfl
      | none =>
        refine Body.typeText_congr fun view child _ => ?_
        split
        · rename_i hlt
          exact ih child hlt (fun k hk => h k (Nat.le_trans hk (Nat.le_of_lt hlt))) view
        · rfl

namespace SameTypes

variable (h : SameTypes r s)

include h

theorem typeText (modelsModule : Value) (view : View) (i : TypeId) :
    s.typeText modelsModule view i = r.typeText modelsModule view i :=
  Registry.typeTextWith_congr _ (fun _ _ => by rw [h.entries]) view

theorem body? (i : TypeId) : s.body? i = r.body? i := by
  rw [Registry.body?, Registry.body?, h.entries]

theorem base (i : TypeId) : s.base i = r.base i := by
  have hfrom : ∀ fuel seen i, s.baseFrom fuel seen i = r.baseFrom fuel seen i := by
    intro fuel
    induction fuel with
    | zero => exact fun _ _ => rfl
    | succ fuel ih =>
      intro seen i
      simp only [Registry.baseFrom, h.body?, ih]
  rw [Registry.base, Registry.base, h.entries, hfrom]

theorem baseKind? (i : TypeId) : s.baseKind? i = r.baseKind? i := by
  rw [Registry.baseKind?, Registry.baseKind?, Registry.baseBody?, Registry.baseBody?, h.base,
    h.body?]

theorem item? (i : TypeId) : s.item? i = r.item? i := by
  rw [Registry.item?, Registry.item?, Registry.baseBody?, Registry.baseBody?, h.base, h.body?]

theorem docs (i : TypeId) : s.docs i = r.docs i := by
  have hfrom : ∀ fuel seen i, s.docsFrom fuel seen i = r.docsFrom fuel seen i := by
    intro fuel
    induction fuel with
    | zero => exact fun _ _ => rfl
    | succ fuel ih =>
      intro seen i
      simp only [Registry.docsFrom, Registry.entry, h.entries, ih]
  rw [Registry.docs, Registry.docs, h.entries, hfrom]

theorem logged (record : LogRecord) : SameTypes (r.logged record) (s.logged record) :=
  ⟨h.entries, h.optional⟩

/-- Registries with the same types still have the same types when one of them is wrapped. -/
theorem wrap (nullable : Bool) {i' : TypeId} {u : Registry}
    (hwrap : outcome (Schema.wrap nullable i) r = (.ok i', u)) :
    ∃ u', outcome (Schema.wrap nullable i) s = (.ok i', u') ∧ SameTypes u u' := by
  cases nullable with
  | false =>
    obtain ⟨hi, rfl⟩ := Prod.mk.inj hwrap
    obtain rfl := Except.ok.inj hi
    exact ⟨s, rfl, h⟩
  | true =>
    rw [Schema.wrap, if_pos rfl] at hwrap ⊢
    have hlookup := h.optional i
    have hbody := h.body? i
    rcases outcome_optional i r with ⟨item, hitem, hout⟩ | ⟨hnot, ⟨known, hknown, hout⟩ | ⟨hnew, hout⟩⟩
    all_goals
      obtain ⟨hi, rfl⟩ := Prod.mk.inj (hout.symm.trans hwrap)
      obtain rfl := Except.ok.inj hi
    · refine ⟨s, ?_, h⟩
      simp only [Schema.optional, outcome_bind, outcome_get, hbody, hitem, outcome_pure]
    · rcases outcome_optional i s with ⟨item, hitem, -⟩ | ⟨-, ⟨other, hother, hout'⟩ | ⟨hnew, -⟩⟩
      · exact absurd (hbody.symm.trans hitem) (hnot item)
      · obtain rfl := Option.some.inj (hother.symm.trans (hlookup.trans hknown))
        exact ⟨s, hout', h⟩
      · cases hnew.symm.trans (hlookup.trans hknown)
    · rcases outcome_optional i s with ⟨item, hitem, -⟩ | ⟨-, ⟨other, hother, -⟩ | ⟨-, hout'⟩⟩
      · exact absurd (hbody.symm.trans hitem) (hnot item)
      · cases hother.symm.trans (hlookup.trans hnew)
      · refine ⟨_, by rw [hout', h.entries], ?_, fun inner => ?_⟩
        · simp only [Registry.settled, Registry.push, h.entries]
        · simp only [Registry.settled, Registry.push, List.lookup_cons, h.optional, h.entries]

end SameTypes

/-! ## Types behind others -/

def Body.isEnd : Body → Bool
  | .synonym _ | .optional _ => false
  | _ => true

namespace Registry

theorem baseFrom_eq_self {b : Body} (hb : r.body? i = some b) (hend : b.isEnd) (fuel : Nat)
    (seen : List TypeId) : r.baseFrom fuel seen i = i := by
  cases fuel with
  | zero => rfl
  | succ fuel =>
    rw [baseFrom]
    split
    · rfl
    · rw [hb]
      cases b with
      | synonym item => cases hend
      | optional item => cases hend
      | _ => rfl

theorem baseKind?_eq {b : Body} (hb : r.body? i = some b) (hend : b.isEnd) :
    r.baseKind? i = some b.kind := by
  rw [baseKind?, baseBody?, base, baseFrom_eq_self hb hend, hb]
  rfl

theorem baseKind?_optional {b : Body} (hb : r.body? i = some b) (hend : b.isEnd)
    (hj : r.body? j = some (.optional i)) : r.baseKind? j = some b.kind := by
  have hbase : r.base j = i := by
    rw [base, baseFrom, if_neg (by simp), hj]
    exact baseFrom_eq_self hb hend _ _
  rw [baseKind?, baseBody?, hbase, hb]
  rfl

end Registry

/-- Whether a registry was made in a run from the start. -/
def Registry.Made (r : Registry) : Prop := ({} : Registry).Steps r

theorem Registry.Made.wellFormed (h : r.Made) : r.WellFormed :=
  Registry.Steps.wellFormed h Registry.wellFormed_empty

private theorem Registry.Made.keyed (h : r.Made) : r.Keyed :=
  Registry.Steps.keyed h Registry.wellFormed_empty Registry.keyed_empty

theorem Registry.Made.logged (h : r.Made) (record : LogRecord) : (r.logged record).Made :=
  h.tail (.logged record)

theorem Registry.Made.resolve (h : r.Made) {nullable : Bool}
    (hi : outcome (Schema.resolve document none v nullable hint) r = (.ok i, s)) :
    s.Made ∧ r.Extends s ∧ i < s.entries.size := by
  obtain ⟨hsteps, hid⟩ := call_steps document h.wellFormed ⟨none, v, nullable, hint⟩
  have hkept := r.afterCall_extends document ⟨none, v, nullable, hint⟩
  have hrun : outcome (Call.run document ⟨none, v, nullable, hint⟩) r = (.ok i, s) := hi
  rw [Registry.afterCall, hrun] at hsteps hid hkept
  exact ⟨h.trans hsteps, hkept, hid rfl⟩

def Registry.Unnamed (r : Registry) (j : TypeId) (b : Body) : Prop :=
  ∃ e, r.entries[j]? = some e ∧ e.body = b ∧ e.name = none

theorem Registry.Unnamed.body? {b : Body} (h : r.Unnamed j b) : r.body? j = some b := by
  obtain ⟨e, he, rfl, -⟩ := h
  rw [Registry.body?, he]
  rfl

theorem Registry.Unnamed.typeTextWith {b : Body} (h : r.Unnamed j b) (hr : r.WellFormed)
    (qualifier : String) (view : View) :
    r.typeTextWith qualifier view j = b.typeText (r.typeTextWith qualifier) view := by
  obtain ⟨e, he, rfl, hname⟩ := h
  rw [hr.typeTextWith_eq, Registry.entry, he]
  simp only [bind, Except.bind, hname]

/-- A type that is not optional is wrapped into one that is optional of it. -/
theorem wrap_made (h : r.Made) (hi : i < r.entries.size)
    (hnot : ∀ item, r.body? i ≠ some (.optional item)) :
    ∃ j s, outcome (wrap true i) r = (.ok j, s) ∧ s.Made ∧ r.Extends s ∧
      s.Unnamed j (.optional i) := by
  rw [wrap, if_pos rfl]
  have hsteps := (optional_steps h.wellFormed hi).1
  have hkept := optional_extends i r
  rcases outcome_optional i r with ⟨item, hitem, -⟩ | ⟨-, ⟨known, hknown, hout⟩ | ⟨hnew, hout⟩⟩
  · exact absurd hitem (hnot item)
  · refine ⟨known, r, hout, h, .refl r, ?_⟩
    obtain ⟨e, schema, hint, he, hsettled⟩ := h.keyed.settled (mem_of_lookup hknown)
    have hbody : e.body = .optional i := by
      rcases hsettled.key with ⟨hkey, -⟩ | ⟨inner, hkey, hbody⟩
      · exact absurd rfl (structuralKey_ne_optionalKey hkey)
      · rw [hbody, optionalKey_injective hkey]
    refine ⟨e, he, hbody, hsettled.done.resolve_right fun hneeds => ?_⟩
    rw [hbody] at hneeds
    cases hneeds
  · rw [hout] at hsteps hkept
    refine ⟨_, _, hout, h.trans hsteps, hkept, { body := .optional i }, ?_, rfl, rfl⟩
    simp [Registry.settled, Registry.push]

end OpenApiClient.Schema

import OpenApiClient.Proofs.CallHistories
import OpenApiClient.Proofs.RegisteredTypes

/-! # Resolving keeps a registry sound

A resolution that succeeds leaves a sound registry, which gives its type for the shape or the
reference that was resolved. So does a series of calls, each of which succeeds. -/
namespace OpenApiClient.Schema

open RegistryM

variable {document schema v : Value} {hint key : String} {resolve : Resolver}
  {r s t : Registry} {id : TypeId} {opens : List TypeId}

private theorem resolveRef_sound (hdocument : document.IsJson) (hgrowing : Growing resolve)
    (hfaithful : Faithful document resolve) (htame : Tame document schema)
    (hisRef : isReference schema = .ok true) {reference : Value}
    (hreference : schema.require "$ref" = .ok reference) (hsound : Sound document r opens)
    (h : outcome (resolveRef document resolve reference) r = (.ok id, t)) :
    Sound document t opens ∧ ∃ ι, identityOf schema = .ok ι ∧ t.recalled ι = some id := by
  obtain ⟨text, rfl, hcases⟩ := resolveRef_ok h
  have hι : identityOf schema = .ok (.reference text) :=
    identityOf_ok_iff.mpr (.inl ⟨hisRef, text, hreference, rfl⟩)
  rcases hcases with ⟨hknown, rfl⟩ | ⟨target, e, s, hnew, htarget, hdescribe, rfl, rfl⟩
  · exact ⟨hsound, _, hι, hknown⟩
  · have htameTarget := htame.leads hdocument (.target hisRef hreference htarget)
    have hgrown := describe_extends hgrowing hdescribe
    obtain ⟨hs, hdescribes⟩ := describe_sound hdocument hgrowing hfaithful htameTarget
      (hsound.opened hnew) hdescribe
    have hopened : (r.opened text (r.nameFor (Text.lastField '/' text))).recalled
        (.reference text) = some r.entries.size := by
      simp [Registry.recalled, Registry.opened]
    have hrecall := hgrown.recalled hopened
    have hknows := Registry.knows_of_recalled hrecall
    have hid := hs.bound hknows
    have hreplaced := hs.replace { e with name := some (r.nameFor (Text.lastField '/' text)) }
      fun hκ => ⟨text, target, hs.single hκ hknows, htarget, htameTarget, hdescribes.depicts hs
        (by simp [Registry.body?, Registry.replace, hid]) (fun {ι i} hi => by cases ι <;> exact hi)
        (Nat.le_refl _)⟩
    exact ⟨hreplaced.grow ((Registry.Extends.refl _).logged _) rfl rfl, _, hι, hrecall⟩

theorem Settles.remembers {e : Entry} (h : Settles schema hint key e s t) :
    ∃ e', e'.body = e.body ∧ t.entries = s.entries.push e' ∧
      t.anonymous = (key, s.entries.size) :: s.anonymous ∧ t.refs = s.refs := by
  cases h with
  | unnamed hneeds => exact ⟨e, rfl, rfl, rfl, rfl⟩
  | named text hneeds htext =>
    exact ⟨{ e with name := some (s.nameFor text) }, rfl, rfl, rfl, rfl⟩

theorem resolveWith_faithful (hdocument : document.IsJson) (fuel : Nat)
    (active : List (Value × Nat)) : Faithful document (resolveWith document fuel active) := by
  induction fuel generalizing active with
  | zero =>
    intro schema hint r id t opens htame hsound h
    simp [resolveWith] at h
  | succ fuel ih =>
    intro schema hint r id t opens htame hsound h
    rcases resolveWith_ok h with ⟨reference, hisRef, hreference, href⟩ |
      ⟨hisRef, key, hkey, ⟨hknown, rfl⟩ | ⟨e, s, hnew, -, hdescribe, rfl, hsettles⟩⟩
    · exact resolveRef_sound hdocument (resolveWith_growing document fuel []) (ih []) htame hisRef
        hreference hsound href
    · exact ⟨hsound, _, identityOf_ok_iff.mpr (.inr ⟨hisRef, key, hkey, rfl⟩), hknown⟩
    · have hι : identityOf schema.orEmpty = .ok (.shape key) :=
        identityOf_ok_iff.mpr (.inr ⟨hisRef, key, hkey, rfl⟩)
      obtain ⟨hs, hdescribes⟩ := describe_sound hdocument (resolveWith_growing document fuel _)
        (ih _) htame hsound hdescribe
      obtain ⟨e', hbody, hentries, hanonymous, hrefs⟩ := hsettles.remembers
      have hknows : ∀ {ι i}, s.Knows ι i → t.Knows ι i := by
        rintro (_ | _) i hi
        · rw [Registry.Knows, hrefs]
          exact hi
        · rw [Registry.Knows, hanonymous]
          exact List.mem_cons_of_mem _ hi
      refine ⟨hs.remember hentries hanonymous hrefs (fun _ => ?_) fun hoptional => ?_, _, hι, ?_⟩
      · exact ⟨_, htame, hι, hdescribes.depicts hs (hbody ▸ body?_push_self e' hentries) hknows
          (Nat.le_refl _)⟩
      · exact absurd hoptional (structuralKey_ne_optionalKey hkey)
      · rw [Registry.recalled, hanonymous, List.lookup_cons_self]

/-- What wrapping a type gives: the type itself, or one that is optional of it. -/
inductive Wraps (r : Registry) (nullable : Bool) (id : TypeId) : TypeId → Registry → Prop
  | same (h : nullable = true → ∃ item, r.body? id = some (.optional item)) :
      Wraps r nullable id id r
  | optional {wrapped : TypeId} {t : Registry} (hnullable : nullable = true)
      (hnot : ∀ item, r.body? id ≠ some (.optional item))
      (hbody : t.body? wrapped = some (.optional id)) : Wraps r nullable id wrapped t

private theorem wrap_sound (hsound : Sound document r opens) (nullable : Bool) {wrapped : TypeId}
    (h : outcome (wrap nullable id) r = (.ok wrapped, t)) :
    Sound document t opens ∧ Wraps r nullable id wrapped t := by
  cases nullable with
  | false =>
    obtain ⟨hid, rfl⟩ := Prod.mk.inj h
    obtain rfl := Except.ok.inj hid
    exact ⟨hsound, .same fun hnullable => Bool.noConfusion hnullable⟩
  | true =>
    rw [wrap, if_pos rfl] at h
    rcases outcome_optional id r with ⟨item, hitem, hout⟩ | ⟨hnot, ⟨_, hknown, hout⟩ | ⟨hnew, hout⟩⟩
    · obtain ⟨hid, rfl⟩ := Prod.mk.inj (hout.symm.trans h)
      obtain rfl := Except.ok.inj hid
      exact ⟨hsound, .same fun _ => ⟨item, hitem⟩⟩
    · obtain ⟨hid, rfl⟩ := Prod.mk.inj (hout.symm.trans h)
      obtain rfl := Except.ok.inj hid
      have hknows : r.Knows (.shape (optionalKey id)) _ := Registry.knows_of_recalled hknown
      exact ⟨hsound, .optional rfl hnot (hsound.optional hknows)⟩
    · obtain ⟨hid, rfl⟩ := Prod.mk.inj (hout.symm.trans h)
      obtain rfl := Except.ok.inj hid
      refine ⟨hsound.remember rfl rfl rfl (fun hkey => ?_) fun hoptional => ?_,
        .optional rfl hnot ?_⟩
      · exact absurd rfl (structuralKey_ne_optionalKey hkey)
      · rw [optionalKey_injective hoptional]
      · exact body?_push_self (s := r) { body := .optional id } rfl

/-- A type under a preferred name is described as the schema that it is given to. -/
theorem named_sound (hdocument : document.IsJson) {schema : Value} (htame : Tame document schema)
    (hsound : Sound document r []) (text : String) (fuel : Nat)
    (h : outcome (claim text >>= fun name => register name (fun _ => pure ())
      (describe document (resolveWith document fuel []) schema name)) r = (.ok id, t)) :
    Sound document t [] ∧ ∃ limit, Depicts document t limit schema id := by
  rw [outcome_claim_register] at h
  split at h
  · rename_i e u hdescribe
    obtain ⟨hid, rfl⟩ := Prod.mk.inj h
    obtain rfl := Except.ok.inj hid
    have hgrowing : Growing (resolveWith document fuel []) := resolveWith_growing document fuel []
    have hnamed : Sound document (r.named (r.nameFor text)) [] :=
      hsound.grow (.named r _) rfl rfl
    have hsize : (r.named (r.nameFor text)).entries.size = r.entries.size + 1 :=
      Registry.size_push _ _
    have hgrown := describe_extends hgrowing hdescribe
    obtain ⟨hu, hdescribes⟩ := describe_sound hdocument hgrowing
      (resolveWith_faithful hdocument fuel []) htame hnamed hdescribe
    have hbound : r.entries.size < u.entries.size :=
      Nat.lt_of_lt_of_le (hsize ▸ Nat.lt_succ_self _) hgrown.size
    refine ⟨(hu.weaken r.entries.size).replace _ fun {ι} hι => ?_, u.entries.size,
      hdescribes.depicts hu ?_ (fun {ι i} hι => ?_) (Nat.le_refl _)⟩
    · rcases hgrown.knows_new hι with hold | hnew
      · have hknown : r.Knows ι r.entries.size := by cases ι <;> exact hold
        exact absurd (hsound.bound hknown) (Nat.lt_irrefl _)
      · rw [hsize] at hnew
        exact absurd hnew (Nat.not_succ_le_self _)
    · simp [Registry.body?, Registry.replace, hbound]
    · cases ι <;> exact hι
  · cases h

/-- A call that succeeds keeps registries sound. Its type, before it is wrapped, is known for the
schema or described as it. -/
theorem resolve_sound (hdocument : document.IsJson) {schema : Value}
    (htame : Tame document schema.orEmpty) (hsound : Sound document r [])
    {preferred : Option String} {nullable : Bool} {wrapped : TypeId}
    (h : outcome (Schema.resolve document preferred schema nullable hint) r = (.ok wrapped, t)) :
    ∃ id s, Sound document s [] ∧ Sound document t [] ∧ s.Extends t ∧
      Wraps s nullable id wrapped t ∧
      ((preferred.getD "" = "" ∧ ∃ ι, identityOf schema.orEmpty = .ok ι ∧ s.Knows ι id) ∨
        preferred.getD "" ≠ "" ∧ ∃ limit, Depicts document s limit schema.orEmpty id) := by
  have hwrapped : ∀ {m : RegistryM TypeId}, outcome (m >>= wrap nullable) r = (.ok wrapped, t) →
      ∃ id s, outcome m r = (.ok id, s) ∧ s.Extends t ∧
        (Sound document s [] → Sound document t [] ∧ Wraps s nullable id wrapped t) := by
    intro m hm
    obtain ⟨id, s, hid, hwrap⟩ := bind_ok_iff.mp hm
    have hgrown := wrap_extends nullable id s
    rw [hwrap] at hgrown
    exact ⟨id, s, hid, hgrown, fun hs => wrap_sound hs nullable hwrap⟩
  rcases resolve_cases document preferred schema nullable hint with
    ⟨hpreferred, hcase⟩ | ⟨text, rfl, htext, hcase⟩
  · rw [hcase] at h
    obtain ⟨id, s, hid, hgrown, hwrap⟩ := hwrapped h
    have htame' : Tame document schema.orEmpty.orEmpty := by rwa [Value.orEmpty_orEmpty]
    obtain ⟨hs, ι, hι, hknown⟩ := resolveWith_faithful hdocument _ [] htame' hsound hid
    obtain ⟨ht, hwraps⟩ := hwrap hs
    rw [Value.orEmpty_orEmpty] at hι
    exact ⟨id, s, hs, ht, hgrown, hwraps,
      .inl ⟨hpreferred, ι, hι, Registry.knows_of_recalled hknown⟩⟩
  · rw [hcase] at h
    obtain ⟨id, s, hid, hgrown, hwrap⟩ := hwrapped h
    obtain ⟨hs, hdepicts⟩ := named_sound hdocument htame hsound text _ hid
    obtain ⟨ht, hwraps⟩ := hwrap hs
    exact ⟨id, s, hs, ht, hgrown, hwraps, .inr ⟨htext, hdepicts⟩⟩

theorem calls_sound (hdocument : document.IsJson) {calls : List Call} {ids : List TypeId}
    (htame : ∀ call ∈ calls, Tame document call.schema.orEmpty) (hsound : Sound document r [])
    (h : outcome (calls.mapM (Call.run document)) r = (.ok ids, t)) : Sound document t [] := by
  induction calls generalizing r ids with
  | nil =>
    simp only [mapM_nil_outcome, Prod.mk.injEq] at h
    exact h.2 ▸ hsound
  | cons call calls ih =>
    obtain ⟨id, s, others, hcall, hcalls, -⟩ := mapM_cons_ok_iff.mp h
    obtain ⟨htameCall, htameCalls⟩ := List.forall_mem_cons.mp htame
    obtain ⟨_, _, -, hs, -⟩ := resolve_sound hdocument htameCall hsound hcall
    exact ih htameCalls hs hcalls

end OpenApiClient.Schema

import OpenApiClient.Proofs.RegistrySteps
import Mathlib.Logic.Relation

/-! # Resolving without a watch

A resolution watches for a schema that is met again with no type registered in between. The watch
saves steps and changes no answer, and nothing in the registry: without it such a schema is
described over and over, at whatever depth, until no fuel is left. -/
namespace OpenApiClient.Schema

open Relation RegistryM

variable {α β : Type} {document schema : Value} {hint : String} {fuel : Nat}
  {active : List (Value × Nat)} {r s t : Registry} {id : TypeId}

/-! ## Hints

The hint for names goes in front of the hints of the parts, and decides nothing else. -/

def Part.prefixed (hint : String) (p : Part) : Part := { p with hint := hint ++ p.hint }

def Layer.prefixed (hint : String) (outer : Layer) : Layer :=
  { outer with parts := outer.parts.map (Part.prefixed hint) }

theorem objectLayer_prefixed (schema : Value) (hint : String) :
    objectLayer schema hint = (objectLayer schema "").map (Layer.prefixed hint) := by
  refine bind_eq_map fun properties => ?_
  dsimp only
  split
  · refine bind_eq_map fun required => bind_eq_map fun members => ?_
    simp [Layer.prefixed, Part.prefixed, pure, Except.pure, Except.map, String.append_assoc]
  · refine bind_eq_map fun values => ?_
    simp [Layer.prefixed, Part.prefixed, pure, Except.pure, Except.map]

private theorem unionLayer_prefixed (frame : Frame) (schemas : List Value) (hint : String) :
    unionLayer frame schemas hint = (unionLayer frame schemas "").prefixed hint := by
  simp [unionLayer, Layer.prefixed, Part.prefixed]

private theorem plainLayer_prefixed (schema : Value) (hint : String) :
    plainLayer schema hint = (plainLayer schema "").map (Layer.prefixed hint) := by
  refine bind_eq_map fun ms => bind_eq_map fun enumeration => bind_eq_map fun values => ?_
  cases values with
  | some values => rfl
  | none =>
    refine bind_eq_map fun type => ?_
    split
    · simp [Layer.prefixed, Part.prefixed, pure, Except.pure, Except.map]
    · exact bind_eq_map fun _ => bind_eq_map fun _ => rfl
    · rfl
    · rfl
    · rfl
    · exact bind_eq_map fun _ => rfl
    · split
      · exact objectLayer_prefixed schema hint
      · rfl

theorem layer_prefixed (document schema : Value) (hint : String) :
    layer document schema hint = (layer document schema "").map (Layer.prefixed hint) := by
  have hchoice : ∀ alternatives,
      choiceLayer alternatives hint = (choiceLayer alternatives "").map (Layer.prefixed hint) := by
    intro alternatives
    refine bind_eq_map fun subs => ?_
    exact congrArg Except.ok (unionLayer_prefixed .choice subs hint)
  refine bind_eq_map fun ms => bind_eq_map fun nullable => ?_
  split
  · refine bind_eq_map fun inner => ?_
    simp [Layer.prefixed, Part.prefixed, pure, Except.pure, Except.map]
  · split
    · simp [Layer.prefixed, Part.prefixed, pure, Except.pure, Except.map]
    · split
      · refine bind_eq_map fun subs => ?_
        split
        · simp [Layer.prefixed, Part.prefixed, pure, Except.pure, Except.map]
        · exact bind_eq_map fun flat => objectLayer_prefixed flat.toObject hint
      · split
        · exact hchoice _
        · exact hchoice _
        · exact plainLayer_prefixed schema hint

/-! ## The resolution without the watch -/

/-- The type of a schema without a preferred name, with no watch for schemas met again. -/
def resolveFreely (document : Value) : (fuel : Nat) → Resolver
  | 0 => fun _ _ => throw .endless
  | fuel + 1 => fun schema hint => do
    let schema := schema.orEmpty
    if ← isReference schema then
      resolveRef document (resolveFreely document fuel) (← schema.require "$ref")
    else
      let key ← structuralKey schema
      match (← get).anonymous.lookup key with
      | some id => return id
      | none =>
        settle schema hint key (← describe document (resolveFreely document fuel) schema hint)

theorem resolveFreely_reference {reference : Value} (hisRef : isReference schema.orEmpty = .ok true)
    (hreference : schema.orEmpty.require "$ref" = .ok reference) :
    outcome (resolveFreely document (fuel + 1) schema hint) r =
      outcome (resolveRef document (resolveFreely document fuel) reference) r := by
  simp only [resolveFreely, outcome_bind, outcome_lift, hisRef, if_true, hreference]

theorem resolveRef_known {text : String} (h : r.refs.lookup text = some id) (resolve : Resolver) :
    outcome (resolveRef document resolve (.text text)) r = (.ok id, r) := by
  simp only [resolveRef, outcome_bind, outcome_lift, Value.asText, outcome_get, h, outcome_pure]

theorem resolveFreely_known {key : String} (hisRef : isReference schema.orEmpty = .ok false)
    (hkey : structuralKey schema.orEmpty = .ok key) (hknown : r.anonymous.lookup key = some id) :
    outcome (resolveFreely document (fuel + 1) schema hint) r = (.ok id, r) := by
  simp only [resolveFreely, outcome_bind, outcome_lift, hisRef, Bool.false_eq_true, if_false, hkey,
    outcome_get, hknown, outcome_pure]

theorem resolveFreely_new {key : String} (hisRef : isReference schema.orEmpty = .ok false)
    (hkey : structuralKey schema.orEmpty = .ok key) (hnew : r.anonymous.lookup key = none) :
    outcome (resolveFreely document (fuel + 1) schema hint) r =
      outcome (describe document (resolveFreely document fuel) schema.orEmpty hint >>=
        settle schema.orEmpty hint key) r := by
  simp only [resolveFreely, outcome_bind, outcome_lift, hisRef, Bool.false_eq_true, if_false, hkey,
    outcome_get, hnew]

/-! ## Schemas met again -/

def Fails (document : Value) (r : Registry) (fuel : Nat) (schema : Value) : Prop :=
  ∀ v hint, v.orEmpty = schema →
    outcome (resolveFreely document fuel v hint) r = (.error .endless, r)

def DelaysIn (document : Value) (r : Registry) (schema next : Value) : Prop :=
  ∀ fuel, Fails document r fuel next → Fails document r (fuel + 1) schema

/-- What comes back to itself has no end with any fuel. -/
theorem fails_of_delaysIn (h : TransGen (DelaysIn document r) schema schema) (fuel : Nat) :
    Fails document r fuel schema := by
  induction fuel generalizing schema with
  | zero => exact fun v hint _ => rfl
  | succ fuel ih =>
    obtain ⟨next, hnext, hback⟩ := TransGen.head'_iff.mp h
    exact hnext fuel (ih (TransGen.tail' hback hnext))

/-- Whether a resolution gives a type that was there already, wherever the fuel suffices. -/
def Hits (r : Registry) (m : Nat → RegistryM α) (a : α) : Prop :=
  ∀ fuel, outcome (m fuel) r = (.ok a, r) ∨ outcome (m fuel) r = (.error .endless, r)

/-- A resolution that registers no type gives one that was there, and does so at every depth and
with every hint. -/
theorem hits_of_size (hfree : resolveFreely document fuel = resolveWith document fuel [])
    (h : outcome (resolveFreely document fuel schema hint) r = (.ok id, t))
    (hsize : t.entries.size = r.entries.size) :
    t = r ∧ ∀ hint, Hits r (resolveFreely document · schema hint) id := by
  cases fuel with
  | zero => simp [resolveFreely] at h
  | succ fuel =>
    rw [hfree] at h
    rcases resolveWith_ok h with ⟨reference, hisRef, hreference, href⟩ |
      ⟨hisRef, key, hkey, ⟨hknown, rfl⟩ | ⟨e, s, hnew, -, hdescribe, -, hsettles⟩⟩
    · obtain ⟨text, rfl, ⟨hknown, rfl⟩ | ⟨target, e, s, hnew, -, hdescribe, -, rfl⟩⟩ :=
        resolveRef_ok href
      · refine ⟨rfl, fun hint other => ?_⟩
        cases other with
        | zero => exact .inr rfl
        | succ other =>
          exact .inl ((resolveFreely_reference hisRef hreference).trans (resolveRef_known hknown _))
      · -- A reference that is opened has a type of its own.
        have hgrown := (describe_extends (resolveWith_growing document fuel []) hdescribe).size
        have hopened : (r.opened text (r.nameFor (Text.lastField '/' text))).entries.size =
            r.entries.size + 1 := Registry.size_push _ _
        have hfilled : s.entries.size = r.entries.size := by
          rw [← hsize]
          exact (Registry.size_replace _ _ _).symm
        omega
    · refine ⟨rfl, fun hint other => ?_⟩
      cases other with
      | zero => exact .inr rfl
      | succ other => exact .inl (resolveFreely_known hisRef hkey hknown)
    · have hgrown := (describe_extends (resolveWith_growing document fuel _) hdescribe).size
      have hsettled := hsettles.size_eq
      omega

private theorem Hits.part {p : Part} (h : ∀ hint, Hits r (resolveFreely document · p.schema hint) id)
    (hdescribed : p.described → ∃ d, p.schema.orEmpty.get "description" = .ok d) (hint : String) :
    Hits r (fun fuel => resolvePart (resolveFreely document fuel) (p.prefixed hint)) id := by
  intro fuel
  have hpart : resolvePart (resolveFreely document fuel) (p.prefixed hint) = (do
      let id ← resolveFreely document fuel p.schema (hint ++ p.hint)
      if p.described then
        let _ ← p.schema.orEmpty.get "description"
      return id) := rfl
  dsimp only
  rw [hpart, outcome_bind]
  rcases h (hint ++ p.hint) fuel with hok | hnone
  · refine .inl ?_
    dsimp only at hok
    rw [hok]
    dsimp only
    by_cases hp : p.described
    · obtain ⟨d, hd⟩ := hdescribed hp
      simp only [if_pos hp, outcome_bind, outcome_lift, hd, outcome_pure]
    · rw [if_neg hp]
      rfl
  · refine .inr ?_
    dsimp only at hnone
    rw [hnone]

/-- Parts that register no type give types that were there, and do so at every depth and with every
hint. -/
theorem hits_parts (hfree : resolveFreely document fuel = resolveWith document fuel [])
    {parts : List Part} {ids : List TypeId}
    (h : outcome ((parts.map (Part.prefixed hint)).mapM
      (resolvePart (resolveFreely document fuel))) r = (.ok ids, t))
    (hsize : t.entries.size = r.entries.size) :
    t = r ∧ ∀ hint, Hits r (fun fuel => (parts.map (Part.prefixed hint)).mapM
      (resolvePart (resolveFreely document fuel))) ids := by
  have hgrowing : Growing (resolveFreely document fuel) :=
    hfree ▸ resolveWith_growing document fuel []
  induction parts generalizing r ids with
  | nil =>
    simp only [List.map_nil, mapM_nil_outcome, Prod.mk.injEq, Except.ok.injEq] at h
    exact ⟨h.2.symm, fun _ _ => .inl (by rw [← h.1]; rfl)⟩
  | cons p rest ih =>
    rw [List.map_cons] at h
    obtain ⟨id, s, others, hp, hrest, rfl⟩ := mapM_cons_ok_iff.mp h
    have hfirst := (resolvePart_extends hgrowing hp).size
    have hothers := (parts_extends hgrowing hrest).size
    obtain ⟨hresolve, hdescribed⟩ := resolvePart_ok hp
    obtain ⟨rfl, hhits⟩ := hits_of_size hfree hresolve (by omega)
    obtain ⟨rfl, hrests⟩ := ih hrest hsize
    refine ⟨rfl, fun hint other => ?_⟩
    have hpart := Hits.part (p := p) hhits hdescribed hint other
    dsimp only at hpart ⊢
    rw [List.map_cons, List.mapM_cons, outcome_bind]
    rcases hpart with hok | hnone
    · rw [hok]
      dsimp only
      rw [outcome_bind]
      rcases hrests hint other with hok | hnone
      · exact .inl (by rw [hok]; rfl)
      · exact .inr (by rw [hnone])
    · exact .inr (by rw [hnone])

/-- A part has no end before the schema that it is a part of, if all parts before it have types. -/
theorem delaysIn_part {inner : Layer} {before after : List Part} {p : Part} {description : Value}
    {key : String} {ids : List TypeId} (hisRef : isReference schema = .ok false)
    (hkey : structuralKey schema = .ok key) (hnew : r.anonymous.lookup key = none)
    (hdescription : schema.get "description" = .ok description)
    (hlayer : layer document schema "" = .ok inner) (hparts : inner.parts = before ++ p :: after)
    (hbefore : ∀ hint, Hits r (fun fuel => (before.map (Part.prefixed hint)).mapM
      (resolvePart (resolveFreely document fuel))) ids) :
    DelaysIn document r schema p.schema.orEmpty := by
  intro fuel hfails v hint hv
  have houter : layer document schema hint = .ok (inner.prefixed hint) := by
    rw [layer_prefixed, hlayer]
    rfl
  have hpart : outcome (resolvePart (resolveFreely document fuel) (p.prefixed hint)) r =
      (.error .endless, r) := by
    have hschema : outcome (resolveFreely document fuel (p.prefixed hint).schema
        (p.prefixed hint).hint) r = (.error .endless, r) := hfails _ _ rfl
    rw [resolvePart, outcome_bind, hschema]
  have hall : outcome ((inner.prefixed hint).parts.mapM
      (resolvePart (resolveFreely document fuel))) r = (.error .endless, r) := by
    rw [Layer.prefixed, hparts, List.map_append, List.map_cons, List.mapM_append, outcome_bind]
    rcases hbefore hint fuel with hok | hnone
    · rw [hok]
      dsimp only
      rw [List.mapM_cons, outcome_bind, outcome_bind, hpart]
    · rw [hnone]
  rw [← hv] at hisRef hkey
  rw [resolveFreely_new hisRef hkey hnew, hv]
  simp only [describe, outcome_bind, outcome_lift, hdescription, houter, hall]

/-- The steps through a list may be replaced one by one, each where those before it succeed. -/
theorem mapM_congr_stepwise {f g : α → RegistryM β} {xs : List α}
    (h : ∀ (before : List α) (x : α) (after : List α), xs = before ++ x :: after →
      ∀ ys s, outcome (before.mapM g) r = (.ok ys, s) → outcome (f x) s = outcome (g x) s) :
    outcome (xs.mapM f) r = outcome (xs.mapM g) r := by
  induction xs generalizing r with
  | nil => rfl
  | cons x rest ih =>
    rw [List.mapM_cons, List.mapM_cons, outcome_bind, outcome_bind, h [] x rest rfl [] r rfl]
    cases hx : outcome (g x) r with
    | mk answer s =>
      cases answer with
      | error fault => rfl
      | ok y =>
        dsimp only
        rw [outcome_bind, outcome_bind, ih fun before z after hrest ys t hys => ?_]
        refine h (x :: before) z after (by rw [hrest]; rfl) (y :: ys) t ?_
        exact mapM_cons_ok_iff.mpr ⟨y, s, ys, hx, hys, rfl⟩

private theorem describe_congr {f g : Resolver}
    (h : ∀ description, schema.get "description" = .ok description →
      ∀ inner, layer document schema "" = .ok inner →
      ∀ (before : List Part) (p : Part) (after : List Part), inner.parts = before ++ p :: after →
      ∀ ids s, outcome ((before.map (Part.prefixed hint)).mapM (resolvePart g)) r = (.ok ids, s) →
        outcome (f p.schema (hint ++ p.hint)) s = outcome (g p.schema (hint ++ p.hint)) s) :
    outcome (describe document f schema hint) r = outcome (describe document g schema hint) r := by
  simp only [describe, outcome_bind, outcome_lift]
  cases hdescription : schema.get "description" with
  | error fault => rfl
  | ok description =>
    rw [layer_prefixed]
    cases hinner : layer document schema "" with
    | error fault => rfl
    | ok inner =>
      simp only [Except.map, Layer.prefixed]
      rw [mapM_congr_stepwise fun before x after hsplit ids s hids => ?_]
      obtain ⟨before, rest, hparts, rfl, hrest⟩ := List.map_eq_append_iff.mp hsplit
      obtain ⟨p, after, rfl, rfl, -⟩ := List.map_eq_cons_iff.mp hrest
      have hp : outcome (f (p.prefixed hint).schema (p.prefixed hint).hint) s =
          outcome (g (p.prefixed hint).schema (p.prefixed hint).hint) s :=
        h description hdescription inner hinner before p after hparts ids s hids
      rw [resolvePart, resolvePart, outcome_bind, outcome_bind, hp]

/-- Without the watch resolving gives the same, and leaves the same registry, if each schema that is
watched for leads to the one that is resolved, unless a type was registered in between. -/
theorem resolveWith_eq_freely
    (h : ∀ a ∈ active, a.2 ≤ r.entries.size ∧
      (a.2 = r.entries.size → TransGen (DelaysIn document r) a.1 schema.orEmpty)) :
    outcome (resolveWith document fuel active schema hint) r =
      outcome (resolveFreely document fuel schema hint) r := by
  induction fuel generalizing active schema hint r with
  | zero => rfl
  | succ fuel ih =>
    have hfree : resolveFreely document fuel = resolveWith document fuel [] := by
      funext v hint r
      exact (ih (by simp)).symm
    -- A schema that is met again leads to itself, so it has no end without the watch either.
    have hfails := fun hagain : (schema.orEmpty, r.entries.size) ∈ active =>
      fails_of_delaysIn ((h _ hagain).2 rfl) (fuel + 1) schema hint rfl
    rw [resolveFreely] at hfails ⊢
    rw [resolveWith_succ]
    simp only [outcome_bind, outcome_lift] at hfails ⊢
    rcases hisRef : isReference schema.orEmpty with fault | _ | _
    · rfl
    · rcases hkey : structuralKey schema.orEmpty with fault | key
      · simp only [Bool.false_eq_true, if_false, outcome_bind, outcome_lift]
      · simp only [hisRef, Bool.false_eq_true, if_false, outcome_bind, outcome_lift, hkey,
          outcome_get] at hfails ⊢
        cases hnew : r.anonymous.lookup key with
        | some known => rfl
        | none =>
          simp only [hnew] at hfails ⊢
          by_cases hagain : (schema.orEmpty, r.entries.size) ∈ active
          · rw [hfails hagain]
            simp only [List.contains_eq_mem, hagain, decide_true, if_true, outcome_bind,
              outcome_throw]
          · simp only [List.contains_eq_mem, hagain, decide_false, Bool.false_eq_true, if_false]
            rw [outcome_bind, outcome_bind, describe_congr]
            intro description hdescription inner hinner before p after hparts ids s hids
            have hgrown : r.entries.size ≤ s.entries.size :=
              (parts_extends (hfree ▸ resolveWith_growing document fuel []) hids).size
            -- If the parts before registered no type, they leave the registry as it is.
            have hnext : s.entries.size = r.entries.size →
                s = r ∧ DelaysIn document r schema.orEmpty p.schema.orEmpty := by
              intro hsize
              obtain ⟨rfl, hhits⟩ := hits_parts hfree hids hsize
              exact ⟨rfl, delaysIn_part hisRef hkey hnew hdescription hinner hparts hhits⟩
            refine ih fun a ha => ?_
            rcases List.mem_cons.mp ha with rfl | ha
            · refine ⟨hgrown, fun hsize => ?_⟩
              obtain ⟨rfl, hdelays⟩ := hnext hsize.symm
              exact .single hdelays
            · obtain ⟨hle, hleads⟩ := h a ha
              refine ⟨Nat.le_trans hle hgrown, fun hsize => ?_⟩
              obtain ⟨rfl, hdelays⟩ := hnext (by omega)
              exact (hleads hsize).tail hdelays
    · rw [hfree]
      rfl

/-- Without the watch the resolution of a part is the same. -/
theorem resolveWith_nil_eq_freely (document : Value) (fuel : Nat) :
    resolveWith document fuel [] = resolveFreely document fuel := by
  funext v hint r
  exact resolveWith_eq_freely (by simp)

/-! ## More fuel -/

/-- Whether a step ends as another one does from the registry, if that one has an end. -/
def Repeats (r : Registry) (m m' : RegistryM α) : Prop :=
  (outcome m r).1 ≠ .error .endless → outcome m' r = outcome m r

namespace Repeats

theorem refl (m : RegistryM α) : Repeats r m m := fun _ => rfl

theorem ok {m m' : RegistryM α} {a : α} (h : Repeats r m m') (hm : outcome m r = (.ok a, t)) :
    outcome m' r = (.ok a, t) :=
  (h (by simp [hm])).trans hm

theorem bind {m m' : RegistryM α} {f f' : α → RegistryM β} (hm : Repeats r m m')
    (hf : ∀ a t, Repeats t (f a) (f' a)) : Repeats r (m >>= f) (m' >>= f') := by
  intro hends
  cases hrun : outcome m r with
  | mk x s =>
    rw [outcome_bind, hrun] at hends
    cases x with
    | error fault =>
      have hfault : (outcome m r).1 ≠ .error .endless := by
        rw [hrun]
        exact fun h => hends (congrArg _ (Except.error.inj h))
      rw [outcome_bind, outcome_bind, hm hfault, hrun]
    | ok a =>
      rw [outcome_bind_of_ok hrun, outcome_bind_of_ok (hm.ok hrun)]
      exact hf a s hends

theorem mapM {f f' : α → RegistryM β} (hf : ∀ x r, Repeats r (f x) (f' x)) (xs : List α)
    (r : Registry) : Repeats r (xs.mapM f) (xs.mapM f') := by
  induction xs generalizing r with
  | nil => exact .refl _
  | cons x rest ih =>
    rw [List.mapM_cons, List.mapM_cons]
    exact (hf x r).bind fun _ s => (ih s).bind fun _ _ => .refl _

end Repeats

theorem describe_repeats {f f' : Resolver} (hf : ∀ v hint r, Repeats r (f v hint) (f' v hint))
    (schema : Value) (hint : String) (r : Registry) :
    Repeats r (describe document f schema hint) (describe document f' schema hint) := by
  have hpart : ∀ p t, Repeats t (resolvePart f p) (resolvePart f' p) :=
    fun p t => (hf p.schema p.hint t).bind fun _ _ => .refl _
  refine Repeats.bind (.refl _) fun _ _ => .bind (.refl _) fun outer s => ?_
  exact (Repeats.mapM hpart outer.parts s).bind fun _ _ => .refl _

theorem register_repeats {remember : TypeId → RegistryM Unit} {body body' : RegistryM Entry}
    (h : ∀ r, Repeats r body body') (name : String) (r : Registry) :
    Repeats r (register name remember body) (register name remember body') :=
  Repeats.bind (.refl _) fun _ _ => .bind (.refl _) fun _ s => (h s).bind fun _ _ => .refl _

theorem resolveRef_repeats {f f' : Resolver} (hf : ∀ v hint r, Repeats r (f v hint) (f' v hint))
    (reference : Value) (r : Registry) :
    Repeats r (resolveRef document f reference) (resolveRef document f' reference) := by
  refine Repeats.bind (.refl _) fun text _ => .bind (.refl _) fun known _ => ?_
  split
  · exact .refl _
  · refine Repeats.bind (.refl _) fun target _ => .bind (.refl _) fun name s => ?_
    exact (register_repeats (describe_repeats hf target name) name s).bind fun _ _ => .refl _

/-- More fuel changes no answer. -/
theorem resolveFreely_repeats {more : Nat} (hle : fuel ≤ more) (v : Value) (hint : String)
    (r : Registry) :
    Repeats r (resolveFreely document fuel v hint) (resolveFreely document more v hint) := by
  induction fuel generalizing more v hint r with
  | zero => exact fun hends => absurd rfl hends
  | succ fuel ih =>
    obtain ⟨more, rfl⟩ := Nat.exists_eq_add_of_lt hle
    have hdeeper := fun v hint r => ih (Nat.le_add_right fuel more) v hint r
    rw [resolveFreely, resolveFreely]
    refine Repeats.bind (.refl _) fun isRef _ => ?_
    split
    · exact Repeats.bind (.refl _) fun reference s => resolveRef_repeats hdeeper reference s
    · refine Repeats.bind (.refl _) fun key _ => .bind (.refl _) fun known _ => ?_
      split
      · exact .refl _
      · exact (describe_repeats hdeeper _ hint _).bind fun _ _ => .refl _

end OpenApiClient.Schema

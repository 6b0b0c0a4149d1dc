import OpenApiClient.Operation.Parameter
import OpenApiClient.Proofs.ResolutionEnds

/-! # What the classification of a parameter can fail for

A schema is resolved by looks into the document, so that it fails as these do or has no end. A
parameter fails besides for what is told of it alone: its reference is not known, its place is none,
or it may be sent without a value. That two parameters share an identifier is told of neither. -/
namespace OpenApiClient

open Schema Schema.RegistryM

variable {α β : Type} {P Q : Fault → Prop} {document : Value}

inductive Fault.IsOfSchemas : Fault → Prop
  | look {fault : Fault} (h : fault.IsOfLooks) : IsOfSchemas fault
  | endless : IsOfSchemas .endless

inductive Fault.IsOfParameters : Fault → Prop
  | schema {fault : Fault} (h : fault.IsOfSchemas) : IsOfParameters fault
  | unknown (reference : Value) : IsOfParameters (.of (.unknownParameter reference))
  | misplaced (name place : Value) : IsOfParameters (.of (.unknownLocation name place))
  | emptyAllowed (name : String) : IsOfParameters (.of (.emptyAllowed name))

theorem Fault.IsOfParameters.look {fault : Fault} (h : fault.IsOfLooks) : fault.IsOfParameters :=
  .schema (.look h)

theorem Fault.IsOfParameters.kind_ne {f : Failure} (h : (Fault.failure f).IsOfParameters) :
    f.cause.kind ≠ .duplicateParameter := by
  cases h with
  | schema h =>
    cases h with
    | look h =>
      cases h with
      | dangling reference => exact nofun
  | unknown reference => exact nofun
  | misplaced name place => exact nofun
  | emptyAllowed name => exact nofun

def Schema.RegistryM.FailsBy (P : Fault → Prop) (m : RegistryM α) : Prop :=
  ∀ r fault t, outcome m r = (.error fault, t) → P fault

namespace Schema.RegistryM.FailsBy

variable {m : RegistryM α} {f : α → RegistryM β}

theorem pure (a : α) : FailsBy P (Pure.pure a : RegistryM α) := by
  intro r fault t h
  simp at h

theorem throw {fault : Fault} (h : P fault) : FailsBy P (MonadExcept.throw fault : RegistryM α) := by
  intro r _ t hthrow
  simp only [outcome_throw, Prod.mk.injEq, Except.error.injEq] at hthrow
  exact hthrow.1 ▸ h

theorem lift {x : Except Fault α} (h : OpenApiClient.FailsBy P x) :
    FailsBy P (liftM x : RegistryM α) := by
  intro r fault t hlift
  simp only [outcome_lift, Prod.mk.injEq] at hlift
  exact h fault hlift.1

theorem modify (f : Registry → Registry) : FailsBy P (modify f) := by
  intro r fault t h
  simp at h

theorem get : FailsBy P (MonadState.get : RegistryM Registry) := by
  intro r fault t h
  simp at h

theorem mono (h : FailsBy P m) (hPQ : ∀ fault, P fault → Q fault) : FailsBy Q m :=
  fun r fault t hm => hPQ fault (h r fault t hm)

theorem bind (hm : FailsBy P m) (hf : ∀ a, FailsBy P (f a)) : FailsBy P (m >>= f) := by
  intro r fault t h
  rcases bind_error_iff.mp h with h | ⟨a, s, -, h⟩
  · exact hm r fault t h
  · exact hf a s fault t h

theorem throw_bind {fault : Fault} (h : P fault) :
    FailsBy P ((MonadExcept.throw fault : RegistryM α) >>= f) := by
  intro r _ t hthrow
  rw [outcome_bind, outcome_throw] at hthrow
  cases hthrow
  exact h

theorem mapM (hf : ∀ a, FailsBy P (f a)) (as : List α) : FailsBy P (as.mapM f) := by
  intro r fault t h
  obtain ⟨_, a, _, _, s, -, -, h⟩ := mapM_error h
  exact hf a s fault t h

end Schema.RegistryM.FailsBy

/-! ## Schemas -/

namespace Schema

theorem schemas_look {x : Except Fault α} (h : Looks x) : FailsBy Fault.IsOfSchemas x :=
  h.mono fun _ => .look

private theorem flattenWith_failsBy (document : Value) (fuel : Nat) (active : List Value)
    (schema : Value) :
    FailsBy Fault.IsOfSchemas (flattenWith document fuel active schema) := by
  induction fuel generalizing active schema with
  | zero => exact .error .endless
  | succ fuel ih =>
    refine (schemas_look (followRefs_looks _ _ _ _)).bind fun last =>
      (schemas_look (last.mentions_looks _)).bind fun mentions => ?_
    split
    · split
      · exact .error .endless
      · refine (schemas_look (last.require_looks _)).bind fun all =>
          (schemas_look all.elements_looks).bind fun subs => ?_
        refine .bind (.foldlM (fun f sub => ?_) subs _) fun gathered => ?_
        · exact (ih _ sub).bind fun flat => schemas_look (add_looks f flat)
        · exact (schemas_look (add_looks _ _)).bind fun _ => .pure _
    · exact .pure _

private theorem layer_failsBy (document schema : Value) (hint : String) :
    FailsBy Fault.IsOfSchemas (layer document schema hint) := by
  have hchoice : ∀ alternatives, Looks (choiceLayer alternatives hint) :=
    fun alternatives => alternatives.elements_looks.bind fun _ => .pure _
  refine (schemas_look schema.members_looks).bind fun ms =>
    (schemas_look (isNullable_looks schema)).bind fun nullable => ?_
  split
  · exact (schemas_look (stripNullable_looks schema)).bind fun _ => .pure _
  split
  · exact .pure _
  split
  · refine (schemas_look (extended_looks schema)).bind fun subs => ?_
    split
    · exact .pure _
    · refine .bind ?_ fun flat => schemas_look (objectLayer_looks _ _)
      refine .bind (.foldlM (fun f sub => ?_) _ _) fun gathered => schemas_look (add_looks _ _)
      exact (flattenWith_failsBy _ _ _ sub).bind fun flat => schemas_look (add_looks f flat)
  split
  · exact schemas_look (hchoice _)
  · exact schemas_look (hchoice _)
  · exact schemas_look (plainLayer_looks _ _)

abbrev Resolves (m : RegistryM α) : Prop := m.FailsBy Fault.IsOfSchemas

theorem resolves_look {x : Except Fault α} (h : Looks x) : Resolves (liftM x) :=
  .lift (schemas_look h)

theorem describe_resolves {resolve : Resolver}
    (hresolve : ∀ schema hint, Resolves (resolve schema hint)) (schema : Value) (hint : String) :
    Resolves (describe document resolve schema hint) := by
  refine (resolves_look (schema.get_looks _)).bind fun description =>
    .bind (.lift (layer_failsBy _ _ _)) fun outer =>
    .bind (.mapM (fun part => ?_) _) fun ids => .pure _
  refine (hresolve _ _).bind fun id => ?_
  split
  · exact (resolves_look (Value.get_looks _ _)).bind fun _ => .pure _
  · exact .pure _

theorem claim_resolves (name : String) : Resolves (claim name) := by
  intro r fault t h
  simp [outcome_claim] at h

theorem append_resolves (e : Entry) : Resolves (append e) := by
  intro r fault t h
  simp [outcome_append] at h

theorem register_resolves {remember : TypeId → RegistryM Unit} {body : RegistryM Entry}
    (hremember : ∀ id, Resolves (remember id)) (hbody : Resolves body) (name : String) :
    Resolves (register name remember body) :=
  (append_resolves _).bind fun id => (hremember id).bind fun _ => hbody.bind fun _ =>
    .bind (.modify _) fun _ => .pure _

private theorem resolveRef_resolves {resolve : Resolver}
    (hresolve : ∀ schema hint, Resolves (resolve schema hint)) (reference : Value) :
    Resolves (resolveRef document resolve reference) := by
  refine (resolves_look reference.asText_looks).bind fun text => .bind .get fun r => ?_
  split
  · exact .pure _
  · refine (resolves_look (lookup_looks _ _)).bind fun target =>
      (claim_resolves _).bind fun name => .bind ?_ fun id => .bind (.modify _) fun _ => .pure _
    exact register_resolves (fun _ => .modify _) (describe_resolves hresolve _ _) _

private theorem resolveWith_resolves (document : Value) (fuel : Nat) (active : List (Value × Nat))
    (schema : Value) (hint : String) : Resolves (resolveWith document fuel active schema hint) := by
  induction fuel generalizing active schema hint with
  | zero => exact .throw .endless
  | succ fuel ih =>
    refine (resolves_look (isReference_looks _)).bind fun reference => ?_
    split
    · exact (resolves_look (Value.require_looks _ _)).bind fun reference =>
        resolveRef_resolves (ih _) _
    refine (resolves_look (structuralKey_looks _)).bind fun key => .bind .get fun r => ?_
    dsimp only
    split
    · exact .pure _
    split
    · exact .throw_bind .endless
    · refine .bind (describe_resolves (ih _) _ _) fun entry => ?_
      split
      · refine (resolves_look (modelName_looks _ _ _)).bind fun text =>
          (claim_resolves _).bind fun name => ?_
        exact .bind (.pure _) fun entry => (append_resolves _).bind fun id =>
          .bind (.modify _) fun _ => .pure _
      · exact .bind (.pure _) fun entry => (append_resolves _).bind fun id =>
          .bind (.modify _) fun _ => .pure _

private theorem wrap_resolves (nullable : Bool) (id : TypeId) : Resolves (wrap nullable id) := by
  intro r fault t h
  obtain ⟨wrapped, hwrapped⟩ := wrap_ok nullable id r
  rw [h] at hwrapped
  cases hwrapped

/-- Resolving a schema fails by looks into the document, or has no end. -/
theorem resolve_resolves (document : Value) (preferred : Option String) (schema : Value)
    (nullable : Bool) (hint : String) :
    Resolves (Schema.resolve document preferred schema nullable hint) := by
  rcases resolve_cases document preferred schema nullable hint with ⟨-, hcase⟩ |
    ⟨text, -, -, hcase⟩
  · rw [hcase]
    exact (resolveWith_resolves _ _ _ _ _).bind fun id => wrap_resolves _ _
  · rw [hcase]
    refine .bind (.bind (claim_resolves _) fun name => ?_) fun id => wrap_resolves _ _
    exact register_resolves (fun _ => .pure _)
      (describe_resolves (resolveWith_resolves _ _ _) _ _) _

/-! ## Texts of types -/

theorem Registry.entry_looks (r : Registry) (id : TypeId) : Looks (r.entry id) := by
  unfold entry
  split
  · exact .ok _
  · exact .error .missingEntry

private theorem typeText_failsBy {child : View → TypeId → Except Fault String}
    (hchild : ∀ view id, FailsBy Fault.IsOfSchemas (child view id)) (view : View) (b : Body) :
    FailsBy Fault.IsOfSchemas (b.typeText child view) := by
  cases b with
  | primitive p => exact .ok _
  | array item => exact (hchild _ _).bind fun _ => .pure _
  | map item => exact (hchild _ _).bind fun _ => .pure _
  | optional item => exact (hchild _ _).bind fun _ => .pure _
  | synonym item => exact hchild _ _
  | union members => exact .bind (.mapM (hchild _) _) fun _ => .pure _
  | object fields => exact .error (.look .badValue)
  | enumeration values => exact .error (.look .badValue)

private theorem Registry.typeTextWith_failsBy (r : Registry) (qualifier : String) (view : View)
    (id : TypeId) : FailsBy Fault.IsOfSchemas (r.typeTextWith qualifier view id) := by
  induction id using Nat.strongRecOn generalizing view with
  | ind id ih =>
    rw [typeTextWith]
    refine (schemas_look (r.entry_looks id)).bind fun e => ?_
    split
    · exact .pure _
    · refine typeText_failsBy (fun view child => ?_) _ _
      split
      · exact ih child ‹_› view
      · exact .error .endless

theorem stripped_looks (v : Value) : Looks v.stripped := (Value.asText_looks _).map

private theorem Registry.docs_looks (r : Registry) (id : TypeId) : Looks (r.docs id) := by
  have hfrom : ∀ fuel seen id, Looks (r.docsFrom fuel seen id) := by
    intro fuel
    induction fuel with
    | zero => exact fun _ _ => .ok _
    | succ fuel ih =>
      intro seen id
      unfold docsFrom
      split
      · exact .ok _
      refine (r.entry_looks id).bind fun e => ?_
      split
      · exact stripped_looks _
      split
      · exact ih _ _
      · exact ih _ _
      · exact .pure _
  exact hfrom _ _ _

end Schema

/-! ## Parameters -/

namespace Operation

variable {shared : Members} {settings : Settings}

theorem parameters_look {x : Except Fault α} (h : Looks x) : FailsBy Fault.IsOfParameters x :=
  h.mono fun _ => .look

abbrev Classifies (m : RegistryM α) : Prop := m.FailsBy Fault.IsOfParameters

theorem classifies_look {x : Except Fault α} (h : Looks x) : Classifies (liftM x) :=
  .lift (parameters_look h)

private theorem lookupParameter_failsBy (shared : Members) (parameter : Value) :
    FailsBy Fault.IsOfParameters (lookupParameter shared parameter) := by
  refine (parameters_look (parameter.mentions_looks _)).bind fun mentions => ?_
  split
  · refine (parameters_look (parameter.require_looks _)).bind fun reference =>
      (parameters_look reference.asScalar_looks).bind fun key => ?_
    split
    · exact .error (.unknown _)
    · exact .pure _
    · exact .pure _
  · exact .pure _

private theorem parameterSchema_looks (item : Value) : Looks (parameterSchema item) := by
  refine (item.get?_looks _).bind fun schema => ?_
  split
  · exact .pure _
  · refine (item.get_looks _).bind fun content => (Value.members_looks _).bind fun media => ?_
    split
    · exact .pure _
    · exact (Value.get_looks _ _).bind fun _ => .pure _

private theorem schemaDescription_looks (r : Registry) (schema : Value) (type : TypeId) :
    Looks (schemaDescription r schema type) := by
  refine (schema.get_looks _).bind fun description => (stripped_looks _).bind fun own => ?_
  split
  · refine (schema.mentions_looks _).bind fun mentions => ?_
    split
    · exact r.docs_looks _
    · exact .pure _
  · exact .pure _

private theorem reserved_looks (settings : Settings) : Looks settings.reserved := by
  unfold Settings.reserved
  split
  · exact .ok _
  · exact .ok _
  · exact .error .wrongType

private theorem checkSending_classifies (item : Value) (name : String) (place : Place) :
    Classifies (checkSending item name place) := by
  cases place with
  | path => exact .pure _
  | header => exact .pure _
  | cookie => exact .bind (.modify _) fun _ => .pure _
  | query =>
    refine (classifies_look (item.get?_looks _)).bind fun style => ?_
    dsimp only
    split
    · refine (classifies_look (item.get_looks _)).bind fun allowed => ?_
      split
      · exact .throw_bind (.emptyAllowed _)
      · exact .pure _
    · exact .bind (.modify _) fun _ => .pure _

private theorem presenceOf_classifies (document schema : Value) (required : Bool) (type : TypeId)
    (identifier hint : String) :
    Classifies (presenceOf document schema required type identifier hint) := by
  unfold presenceOf
  split
  · exact .pure _
  · refine .bind .get fun r => ?_
    dsimp only
    split
    · exact .pure _
    · exact ((resolve_resolves _ _ _ _ _).mono fun _ => .schema).bind fun _ => .pure _

/-- What can come of classifying a parameter: nothing is told of any other one. -/
theorem classify_classifies (document : Value) (shared : Members) (settings : Settings)
    (parameter : Value) : Classifies (classify document shared settings parameter) := by
  refine .bind (.lift (lookupParameter_failsBy _ _)) fun ⟨item, component⟩ =>
    (classifies_look (item.get?_looks _)).bind fun name =>
    (classifies_look (item.get?_looks _)).bind fun place => ?_
  dsimp only
  split
  · refine .bind (.pure _) fun place => (classifies_look (Value.asText_looks _)).bind fun name =>
      (classifies_look (reserved_looks _)).bind fun reserved => ?_
    refine (classifies_look (item.get_looks _)).bind fun required =>
      (classifies_look (parameterSchema_looks _)).bind fun schema => ?_
    have hresolve := resolve_resolves document none schema false
      (if component = "" then name else component)
    refine (hresolve.mono fun _ => .schema).bind fun type => .bind .get fun r =>
      (classifies_look (schemaDescription_looks _ _ _)).bind fun described =>
      (checkSending_classifies _ _ _).bind fun sent => (presenceOf_classifies _ _ _ _ _ _).bind
      fun found => .bind .get fun r => .bind (.lift ?_) fun text =>
      (classifies_look (item.get_looks _)).bind fun description => .pure _
    exact (r.typeTextWith_failsBy _ _ _).mono fun _ => .schema
  · exact .throw_bind (.misplaced _ _)

end Operation

end OpenApiClient

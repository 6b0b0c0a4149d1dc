import OpenApiClient.Operation.Listing
import OpenApiClient.Proofs.Looks
import OpenApiClient.Proofs.SettingMembers

/-! # Parameters of a path merged with those of an operation

A parameter has a label: the reference that it is, or the place and the name that it states. An
operation takes over the parameters of its path that have another label than each of its own, and
these come first. Parameters without a label are not merged at all. -/
namespace OpenApiClient.Operation

variable {item declaration v : Value} {shared own : List Value}

/-- By what a parameter is told from others. -/
inductive Label
  | reference (target : Scalar)
  | stated (place name : Scalar)

/-- What is compared of a label. So a reference is taken for a parameter of the place `$ref`. -/
def Label.key : Label → Scalar × Scalar
  | reference target => (.text "$ref", target)
  | stated place name => (place, name)

def placeAndName? : Value → Option (Scalar × Scalar)
  | .mapping ms =>
    match (Members.get? ms "in").getD (.text ""), (Members.get? ms "name").getD (.text "") with
    | .scalar place, .scalar name => some (place, name)
    | _, _ => none
  | _ => none

/-- The label of a parameter, none for a value that cannot be one. -/
def labelOf? : Value → Option Label
  | .mapping ms =>
    match Members.get? ms "$ref" with
    | some (.scalar target) => some (.reference target)
    | some _ => none
    | none => (placeAndName? (.mapping ms)).map fun (place, name) => .stated place name
  | _ => none

/-- Whether two parameters are told to be the same by what is written of them. -/
def writtenAlike (p q : Value) : Bool :=
  match labelOf? p, labelOf? q with
  | some a, some b => sameParameter a.key b.key
  | _, _ => false

/-- The shared parameters that are the same as none of the own ones, and then these. -/
def mergedBy (same : Value → Value → Bool) (shared own : List Value) : List Value :=
  shared.filter (fun p => !own.any (same p)) ++ own

def parametersOf (v : Value) : Except Fault (List Value) := do
  (← v.get "parameters").orNone.elements

def withParameters (declaration : Value) (ps : List Value) : Value :=
  match declaration with
  | .mapping ms => .mapping (Members.set ms (.text "parameters") (.sequence ps))
  | v => v

/-! ## Labels -/

/-- What a parameter is told by is its label, and a value without a label is of the wrong kind. -/
theorem parameterKey_eq (p : Value) :
    parameterKey p = match labelOf? p with
      | some label => .ok label.key
      | none => .error .wrongType := by
  cases p with
  | mapping ms =>
    simp only [parameterKey, labelOf?, Value.mentions_mapping, Value.require, Value.get?_mapping,
      Members.has, bind, Except.bind]
    cases href : Members.get? ms "$ref" with
    | some target => cases target <;> rfl
    | none =>
      simp only [placeAndName?]
      cases (Members.get? ms "in").getD (.text "") <;>
        cases (Members.get? ms "name").getD (.text "") <;> rfl
  | sequence items =>
    simp only [parameterKey, Value.mentions, bind, Except.bind]
    split <;> rfl
  | scalar s =>
    cases s with
    | text s =>
      simp only [parameterKey, Value.mentions, bind, Except.bind]
      split <;> rfl
    | _ => rfl

private theorem mapM_parameterKey (ps : List Value) :
    ps.mapM parameterKey =
      if ps.all fun p => (labelOf? p).isSome then .ok ((ps.filterMap labelOf?).map Label.key)
      else .error .wrongType := by
  induction ps with
  | nil => rfl
  | cons p ps ih =>
    rw [List.mapM_cons, parameterKey_eq, ih, List.all_cons]
    cases hp : labelOf? p with
    | none => rfl
    | some label =>
      rw [List.filterMap_cons_some hp, Option.isSome_some, Bool.true_and]
      by_cases hrest : ps.all fun p => (labelOf? p).isSome
      · rw [if_pos hrest, if_pos hrest]
        rfl
      · rw [if_neg hrest, if_neg hrest]
        rfl

private theorem any_writtenAlike (p : Value) (label : Label) (hp : labelOf? p = some label) :
    own.any (writtenAlike p) =
      ((own.filterMap labelOf?).map Label.key).any (sameParameter label.key) := by
  induction own with
  | nil => rfl
  | cons q own ih =>
    rw [List.any_cons, ih]
    cases hq : labelOf? q <;> simp [writtenAlike, hp, hq]

private theorem filterM_parameterKey (own shared : List Value) :
    (shared.filterM fun p => do
      let key ← parameterKey p
      return !((own.filterMap labelOf?).map Label.key).any (sameParameter key)) =
      if shared.all fun p => (labelOf? p).isSome then
        .ok (shared.filter fun p => !own.any (writtenAlike p))
      else .error .wrongType := by
  induction shared with
  | nil => rfl
  | cons p shared ih =>
    rw [filterM_cons, parameterKey_eq, ih, List.all_cons]
    cases hp : labelOf? p with
    | none => rfl
    | some label =>
      rw [List.filter_cons, any_writtenAlike p label hp, Option.isSome_some, Bool.true_and]
      by_cases hrest : shared.all fun p => (labelOf? p).isSome
      · rw [if_pos hrest, if_pos hrest]
        rfl
      · rw [if_neg hrest, if_neg hrest]
        rfl

/-- Parameters are merged by their labels, when all have one. -/
theorem mergeParameters_eq (shared own : List Value) :
    mergeParameters shared own =
      if (shared ++ own).all fun p => (labelOf? p).isSome then .ok (mergedBy writtenAlike shared own)
      else .error .wrongType := by
  rw [mergeParameters, mapM_parameterKey, List.all_append]
  by_cases hown : own.all fun p => (labelOf? p).isSome
  · rw [if_pos hown, hown, Bool.and_true]
    change ((shared.filterM fun p => do
      let key ← parameterKey p
      return !((own.filterMap labelOf?).map Label.key).any (sameParameter key)) >>=
        fun inherited => pure (inherited ++ own)) = _
    rw [filterM_parameterKey]
    split <;> rfl
  · rw [if_neg hown, Bool.eq_false_iff.mpr hown, Bool.and_false]
    rfl

/-! ## Operations of a path with parameters -/

/-- Which parameters an operation takes over from its path item, and which it lists itself. -/
structure Takes (item declaration : Value) (shared own : List Value) : Prop where
  listed : parametersOf item = .ok shared
  declared : parametersOf declaration = .ok own
  labels : ∀ p ∈ shared ++ own, (labelOf? p).isSome

theorem parametersOf_eq (hv : item.get "parameters" = .ok v) :
    parametersOf item = v.orNone.elements := by
  rw [parametersOf, hv]
  rfl

theorem orNone_elements_eq_nil_iff (v : Value) : v.orNone.elements = .ok [] ↔ v.isTruthy = false := by
  unfold Value.orNone
  by_cases h : v.isTruthy
  · rw [if_pos h, h]
    refine iff_of_false (fun helements => ?_) (by simp)
    unfold Value.elements at helements
    split at helements
    · simp_all [Value.isTruthy]
    · simp_all [Value.isTruthy]
    · simp_all [Value.isTruthy, Scalar.isTruthy]
    · cases helements
  · rw [if_neg h]
    exact iff_of_true rfl (by simpa using h)

theorem withShared_of_none (hv : item.get "parameters" = .ok v) (h : parametersOf item = .ok []) :
    withShared v declaration = .ok declaration := by
  rw [parametersOf_eq hv, orNone_elements_eq_nil_iff] at h
  rw [withShared, h]
  rfl

theorem elements_failsBy (v : Value) : FailsBy (· = .wrongType) v.elements := by
  unfold Value.elements
  split
  · exact .ok _
  · exact .ok _
  · exact .ok _
  · exact .error rfl

private theorem parametersOf_failsBy (v : Value) : FailsBy (· = .wrongType) (parametersOf v) := by
  refine .bind ?_ fun found => elements_failsBy _
  cases v with
  | mapping ms => exact .ok _
  | _ => exact .error rfl

private theorem mergeParameters_failsBy (shared own : List Value) :
    FailsBy (· = .wrongType) (mergeParameters shared own) := by
  rw [mergeParameters_eq]
  split
  · exact .ok _
  · exact .error rfl

/-- Where a path has parameters, those of an operation are merged with them. -/
theorem withShared_eq (hv : v.isTruthy) (declaration : Value) :
    withShared v declaration = do
      let own ← parametersOf declaration
      let shared ← v.elements
      return withParameters declaration (← mergeParameters shared own) := by
  rw [withShared, hv]
  cases declaration <;> rfl

/-- An operation that takes over parameters lists those that it takes over and then its own ones. -/
theorem Takes.withShared_eq (h : Takes item declaration shared own)
    (hv : item.get "parameters" = .ok v) (hshared : shared ≠ []) :
    withShared v declaration =
      .ok (withParameters declaration (mergedBy writtenAlike shared own)) := by
  have hlisted := h.listed
  rw [parametersOf_eq hv] at hlisted
  have htruthy : v.isTruthy := by
    by_contra hfalse
    have hnil := (orNone_elements_eq_nil_iff v).mpr (by simpa using hfalse)
    exact hshared (Except.ok.inj (hlisted.symm.trans hnil))
  rw [Value.orNone, if_pos htruthy] at hlisted
  rw [Operation.withShared_eq htruthy, h.declared, hlisted]
  have hmerged : mergeParameters shared own = .ok (mergedBy writtenAlike shared own) := by
    rw [mergeParameters_eq, if_pos (List.all_eq_true.mpr h.labels)]
  exact congrArg (· >>= fun ps => pure (withParameters declaration ps)) hmerged

/-- Where an operation cannot take over the parameters of its path, its list ends. -/
theorem withShared_of_not_takes (hv : item.get "parameters" = .ok v)
    (hnone : parametersOf item ≠ .ok []) (h : ∀ shared own, ¬ Takes item declaration shared own) :
    withShared v declaration = .error .wrongType := by
  have hlisted := parametersOf_eq hv
  have htruthy : v.isTruthy := by
    by_contra hfalse
    exact hnone (hlisted.trans ((orNone_elements_eq_nil_iff v).mpr (by simpa using hfalse)))
  rw [Value.orNone, if_pos htruthy] at hlisted
  -- Every step fails in the same way, so that only an answer is to be excluded.
  have hfails : FailsBy (· = .wrongType) (withShared v declaration) := by
    rw [withShared_eq htruthy]
    refine (parametersOf_failsBy _).bind fun own => (elements_failsBy _).bind fun shared => ?_
    exact (mergeParameters_failsBy _ _).bind fun ps => .pure _
  cases hd : withShared v declaration with
  | error fault => rw [hfails fault hd]
  | ok d =>
    simp only [withShared_eq htruthy, except_bind_ok_iff] at hd
    obtain ⟨own, hown, shared, hshared, ps, hps, -⟩ := hd
    refine absurd ⟨hlisted.trans hshared, hown, ?_⟩ (h shared own)
    rw [mergeParameters_eq] at hps
    split at hps
    · rename_i hlabels
      exact List.all_eq_true.mp hlabels
    · cases hps

theorem parametersOf_withParameters (h : parametersOf declaration = .ok own) (ps : List Value) :
    parametersOf (withParameters declaration ps) = .ok ps := by
  obtain ⟨found, hfound, -⟩ := except_bind_ok_iff.mp h
  obtain ⟨ms, rfl, -⟩ := get_ok_iff.mp hfound
  rw [withParameters, parametersOf, get_mapping, Members.get?_set, if_pos rfl]
  cases ps <;> rfl

end OpenApiClient.Operation

import OpenApiClient.Proofs.Looks
import OpenApiClient.Schema.Layer

/-! # The layers that a schema can have

A list of the ways in which a schema gets its layer, each with what it takes from the schema. -/
namespace OpenApiClient.Schema

variable {document schema : Value} {hint : String} {outer : Layer}

def mapLayer (values : Value) (hint : String) : Layer :=
  { frame := .map, parts := [⟨values, hint ++ " value", false⟩] }

def mapValues (ms : Members) : Value :=
  match Members.get? ms "additionalProperties" with
  | some (.mapping values) => .mapping values
  | _ => .empty

def fieldsLayer (required : List Scalar) (members : Members) (hint : String) : Layer :=
  { frame := .object (members.map fun m =>
      (m.1, required.any (·.sameKey m.1), propertyDescription m.2))
    parts := members.map fun m => ⟨m.2, hint ++ " " ++ m.1.display, true⟩ }

def unionLayer (frame : Frame) (schemas : List Value) (hint : String) : Layer :=
  { frame, parts := schemas.map fun sub => ⟨sub, hint, false⟩ }

def singleLayer (frame : Frame) (inner : Value) (hint : String) : Layer :=
  { frame, parts := [⟨inner, hint, false⟩] }

/-- An object has properties, or is a map. -/
theorem objectLayer_ok (h : objectLayer schema hint = .ok outer) :
    ∃ ms, schema = .mapping ms ∧
      ((∃ required members, requiredNames schema = .ok required ∧
          Members.get? ms "properties" = some (.mapping members) ∧ members ≠ [] ∧
          outer = fieldsLayer required members hint) ∨
        (((Members.get? ms "properties").getD .null).orEmpty = .empty ∧
          outer = mapLayer (mapValues ms) hint)) := by
  simp only [objectLayer, except_bind_ok_iff, get_ok_iff] at h
  obtain ⟨_, ⟨ms, rfl, rfl⟩, h⟩ := h
  refine ⟨ms, rfl, ?_⟩
  split at h
  · rename_i htruthy
    simp only [except_bind_ok_iff, members_ok_iff, except_pure_ok_iff] at h
    obtain ⟨required, hrequired, members, hmembers, rfl⟩ := h
    rw [hmembers] at htruthy
    have hne : members ≠ [] := by
      rintro rfl
      simp [Value.isTruthy] at htruthy
    refine .inl ⟨required, members, hrequired, ?_, hne, rfl⟩
    cases hp : Members.get? ms "properties" with
    | none => simp [hp, Value.orEmpty, Value.isTruthy, Scalar.isTruthy, hne.symm] at hmembers
    | some v =>
      simp only [hp, Option.getD_some, Value.orEmpty] at hmembers
      split at hmembers
      · rw [hmembers]
      · exact absurd (Value.mapping.inj hmembers).symm hne
  · rename_i htruthy
    simp only [except_bind_ok_iff, get_ok_iff, Value.mapping.injEq] at h
    obtain ⟨_, ⟨_, rfl, rfl⟩, h⟩ := h
    refine .inr ⟨?_, ?_⟩
    · simp only [Value.orEmpty] at htruthy ⊢
      split at htruthy
      · contradiction
      · rename_i hfalse
        simp [hfalse]
    · rcases ha : Members.get? ms "additionalProperties" with _ | ⟨_ | _ | values⟩
      all_goals
        simp only [ha, Option.getD_none, Option.getD_some, except_pure_ok_iff] at h
        rw [mapValues, ha]
        exact h.symm

inductive IsLayer (document : Value) (ms : Members) (hint : String) : Layer → Prop
  | optional {inner : Value} (h : isNullable (.mapping ms) = .ok true)
      (hinner : stripNullable (.mapping ms) = .ok inner) :
      IsLayer document ms hint (singleLayer .optional inner hint)
  | reference {target : Value} (hnull : isNullable (.mapping ms) = .ok false)
      (h : Members.get? ms "$ref" = some target) :
      IsLayer document ms hint (singleLayer .synonym (.mapping [(.text "$ref", target)]) hint)
  | extension {only : Value} (h : extended (.mapping ms) = .ok [only]) :
      IsLayer document ms hint (singleLayer .synonym only hint)
  | merged {subs : List Value} {flat : Flat} {outer : Layer}
      (h : extended (.mapping ms) = .ok subs) (hsubs : ∀ only, subs ≠ [only])
      (hflat : gather document subs (.mapping ms) = .ok flat)
      (houter : objectLayer flat.toObject hint = .ok outer) : IsLayer document ms hint outer
  | choice {key : String} {alternatives : Value} {subs : List Value}
      (hkey : key = "oneOf" ∨ key = "anyOf") (h : Members.get? ms key = some alternatives)
      (hsubs : alternatives.elements = .ok subs) :
      IsLayer document ms hint (unionLayer .choice subs hint)
  | types {types : List Value} (h : Members.get? ms "type" = some (.sequence types)) :
      IsLayer document ms hint
        (unionLayer .union (types.map fun t => .mapping (Members.set ms (.text "type") t)) hint)
  | array (h : Members.get? ms "type" = some (.text "array")) :
      IsLayer document ms hint
        { frame := .array
          parts := [⟨((Members.get? ms "items").getD .null).orEmpty, hint ++ " item", false⟩] }
  | object {outer : Layer} (hms : Members.get? ms "type" = some (.text "object") ∨
        Members.has ms "properties" ∨ Members.has ms "additionalProperties")
      (h : objectLayer (.mapping ms) hint = .ok outer) : IsLayer document ms hint outer
  | enumeration (values : List String) (h : Members.has ms "enum") :
      IsLayer document ms hint { frame := .enumeration values }
  | primitive (p : Primitive) : IsLayer document ms hint { frame := .primitive p }

theorem has_enum_of_textValues {ms : Members} {texts : List String}
    (h : textValues? ((Members.get? ms "enum").getD .null) = .ok (some texts)) :
    Members.has ms "enum" := by
  rw [Members.has]
  cases hget : Members.get? ms "enum" with
  | some values => rfl
  | none =>
    rw [hget] at h
    cases h

theorem isLayer_of_plainLayer {ms : Members} (h : plainLayer (.mapping ms) hint = .ok outer) :
    IsLayer document ms hint outer := by
  simp only [plainLayer, except_bind_ok_iff, members_ok_iff, Value.mapping.injEq, get_mapping,
    Except.ok.injEq] at h
  obtain ⟨_, rfl, _, rfl, values, hvalues, h⟩ := h
  cases values with
  | some values =>
    simp only [except_pure_ok_iff] at h
    exact h ▸ .enumeration values (has_enum_of_textValues hvalues)
  | none =>
    simp only [except_bind_ok_iff, Except.ok.injEq] at h
    obtain ⟨type, htype, h⟩ := h
    split at h
    · rename_i types
      simp only [except_pure_ok_iff] at h
      subst h
      have hlist : IsLayer document ms hint _ := .types (getD_null_eq (by simp) htype)
      rwa [unionLayer, List.map_map] at hlist
    · simp only [except_bind_ok_iff, except_pure_ok_iff] at h
      obtain ⟨_, -, p, -, rfl⟩ := h
      exact .primitive p
    · simp only [except_pure_ok_iff] at h
      exact h ▸ .primitive .integer
    · simp only [except_pure_ok_iff] at h
      exact h ▸ .primitive .number
    · simp only [except_pure_ok_iff] at h
      exact h ▸ .primitive .boolean
    · simp only [except_bind_ok_iff, except_pure_ok_iff, Except.ok.injEq] at h
      obtain ⟨_, rfl, rfl⟩ := h
      exact .array (getD_null_eq (by simp) htype)
    · split at h
      · rename_i hobject
        refine .object ?_ h
        rcases hobject with rfl | hobject
        · exact .inl (getD_null_eq (by simp) htype)
        · exact .inr hobject
      · simp only [except_pure_ok_iff] at h
        exact h ▸ .primitive .any

/-- Every layer is that of a mapping, in one of the ways to a layer. -/
theorem isLayer_of_ok (h : layer document schema hint = .ok outer) :
    ∃ ms, schema = .mapping ms ∧ IsLayer document ms hint outer := by
  simp only [layer, except_bind_ok_iff, members_ok_iff] at h
  obtain ⟨ms, rfl, nullable, hnull, h⟩ := h
  refine ⟨ms, rfl, ?_⟩
  cases nullable with
  | true =>
    simp only [if_true, except_bind_ok_iff, except_pure_ok_iff] at h
    obtain ⟨inner, hinner, rfl⟩ := h
    exact .optional hnull hinner
  | false =>
    simp only [Bool.false_eq_true, if_false] at h
    split at h
    · rename_i target htarget
      simp only [except_pure_ok_iff] at h
      exact h ▸ .reference hnull htarget
    · by_cases hall : Members.has ms "allOf"
      · simp only [hall, if_true, extensionLayer, except_bind_ok_iff] at h
        obtain ⟨subs, hsubs, h⟩ := h
        split at h
        · simp only [except_pure_ok_iff] at h
          exact h ▸ .extension hsubs
        · rename_i hmany
          simp only [except_bind_ok_iff] at h
          obtain ⟨flat, hflat, h⟩ := h
          exact .merged hsubs hmany hflat h
      · simp only [hall, Bool.false_eq_true, if_false] at h
        have hchoice : ∀ key alternatives, key = "oneOf" ∨ key = "anyOf" →
            Members.get? ms key = some alternatives →
            choiceLayer alternatives hint = .ok outer → IsLayer document ms hint outer := by
          intro key alternatives hkey halternatives hlayer
          simp only [choiceLayer, except_bind_ok_iff, except_pure_ok_iff] at hlayer
          obtain ⟨subs, hsubs, rfl⟩ := hlayer
          exact .choice hkey halternatives hsubs
        split at h
        · rename_i heither
          exact hchoice "oneOf" _ (.inl rfl) heither h
        · rename_i halternatives
          exact hchoice "anyOf" _ (.inr rfl) halternatives h
        · exact isLayer_of_plainLayer h

private theorem needsName_objectLayer {ms : Members} {ids : List TypeId}
    (h : objectLayer (.mapping ms) hint = .ok outer)
    (hneeds : (outer.frame.fill ids).needsName) : Members.has ms "properties" := by
  obtain ⟨_, heq, ⟨_, _, -, hproperties, -, -⟩ | ⟨-, rfl⟩⟩ := objectLayer_ok h
  · obtain rfl := Value.mapping.inj heq
    rw [Members.has, hproperties]
    rfl
  · simp [mapLayer, Frame.fill, Body.needsName] at hneeds

/-- A schema whose type needs a name shows it by its members, or extends others. -/
theorem namesModel_or_extends {ms : Members} {ids : List TypeId}
    (h : IsLayer document ms hint outer) (hneeds : (outer.frame.fill ids).needsName) :
    namesModel ms ∨ Members.has ms "allOf" := by
  cases h with
  | merged h hsubs hflat houter =>
    obtain ⟨all, hall, -⟩ := except_bind_ok_iff.mp h
    obtain ⟨_, heq, hget⟩ := require_ok_iff.mp hall
    obtain rfl := Value.mapping.inj heq
    exact .inr (by rw [Members.has, hget]; rfl)
  | object hms houter =>
    left
    rw [namesModel, needsName_objectLayer houter hneeds]
    rfl
  | enumeration values h =>
    left
    rw [namesModel, h, Bool.or_true]
    rfl
  | choice hkey h hsubs =>
    rw [unionLayer, Frame.fill] at hneeds
    split at hneeds <;> cases hneeds
  | _ => simp [singleLayer, unionLayer, Frame.fill, Body.needsName] at hneeds

end OpenApiClient.Schema

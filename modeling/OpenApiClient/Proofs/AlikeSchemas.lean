import OpenApiClient.Proofs.RegularSchemas
import OpenApiClient.Proofs.SchemaForms

/-! # Schemas that are alike

Schemas are alike when they agree in form under every key that does not document them. A title
counts for the form of some schemas and not for that of others, so being alike is kept when null is
struck or a type is chosen, where having one form is not. -/
namespace OpenApiClient.Schema

variable {ms ns rs : Members} {v w x : Value} {key : String}

def AlikeMembers (ms ns : Members) : Prop :=
  ∀ key ∉ documentationKeys, (Members.get? ms key).map (form (holdsProperties false (.text key))) =
    (Members.get? ns key).map (form (holdsProperties false (.text key)))

/-- Whether values have one form, or are mappings with the same forms under all keys that do not
document a schema. -/
inductive Alike : Value → Value → Prop
  | same {v w : Value} (h : form false v = form false w) : Alike v w
  | members {ms ns : Members} (h : AlikeMembers ms ns) : Alike (.mapping ms) (.mapping ns)

theorem alikeMembers_of_form (hms : (Value.mapping ms).IsJson)
    (h : form false (.mapping ms) = form false (.mapping ns)) : AlikeMembers ms ns :=
  fun _ hkey => get?_of_form hms h (isKept_of_not_documentation hkey)
    (isKept_of_not_documentation hkey)

theorem AlikeMembers.symm (h : AlikeMembers ms ns) : AlikeMembers ns ms :=
  fun key hkey => (h key hkey).symm

theorem AlikeMembers.trans (h : AlikeMembers ms ns) (h' : AlikeMembers ns rs) :
    AlikeMembers ms rs :=
  fun key hkey => (h key hkey).trans (h' key hkey)

theorem AlikeMembers.cases (h : AlikeMembers ms ns) (key : String)
    (hkey : key ∉ documentationKeys) :
    (Members.get? ms key = none ∧ Members.get? ns key = none) ∨
      ∃ v w, Members.get? ms key = some v ∧ Members.get? ns key = some w ∧
        form (holdsProperties false (.text key)) v =
          form (holdsProperties false (.text key)) w := by
  have hforms := h key hkey
  cases hms : Members.get? ms key with
  | none =>
    cases hns : Members.get? ns key with
    | none => exact .inl ⟨rfl, rfl⟩
    | some w => simp [hms, hns] at hforms
  | some v =>
    cases hns : Members.get? ns key with
    | none => simp [hms, hns] at hforms
    | some w => exact .inr ⟨v, w, rfl, rfl, by simpa [hms, hns] using hforms⟩

namespace Alike

theorem refl (v : Value) : Alike v v := .same rfl

theorem symm (h : Alike v w) : Alike w v := by
  cases h with
  | same h => exact .same h.symm
  | members h => exact .members h.symm

theorem mapping (hms : (Value.mapping ms).IsJson) (h : Alike (.mapping ms) w) :
    ∃ ns, w = .mapping ns ∧ AlikeMembers ms ns := by
  cases h with
  | same h =>
    obtain ⟨ns, rfl⟩ := mapping_of_form hms h
    exact ⟨ns, rfl, alikeMembers_of_form hms h⟩
  | members h => exact ⟨_, rfl, h⟩

theorem trans (hv : v.IsJson) (hw : w.IsJson) (h : Alike v w) (h' : Alike w x) :
    Alike v x := by
  cases h with
  | same h =>
    cases h' with
    | same h' => exact .same (h.trans h')
    | members h' =>
      obtain ⟨ms, rfl⟩ := mapping_of_form hw h.symm
      exact .members ((alikeMembers_of_form hv h).trans h')
  | members h =>
    obtain ⟨rs, rfl, hrs⟩ := h'.mapping hw
    exact .members (h.trans hrs)

end Alike

theorem form_orEmpty (hv : v.IsJson) (h : form false v = form false w) :
    form false v.orEmpty = form false w.orEmpty := by
  cases v with
  | scalar s => rw [eq_of_form_scalar h]
  | sequence items =>
    obtain ⟨others, rfl, hall⟩ := sequence_of_form hv h
    have hlength := hall.length_eq
    simp only [Value.orEmpty, Value.isTruthy]
    cases items <;> cases others <;> simp_all
  | mapping ms =>
    obtain ⟨ns, rfl⟩ := mapping_of_form hv h
    simpa using h

theorem Alike.orEmpty (hv : v.IsJson) (h : Alike v w) : Alike v.orEmpty w.orEmpty := by
  cases h with
  | same h => exact .same (form_orEmpty hv h)
  | members h => simpa using Alike.members h

variable {items others : List Value} {p : Bool}

theorem SameForms.mem_scalar_iff (h : SameForms items others) (s : Scalar) :
    .scalar s ∈ items ↔ .scalar s ∈ others := by
  induction h with
  | nil => rfl
  | cons hvw _ ih =>
    rw [List.mem_cons, List.mem_cons, ih]
    refine or_congr_left ⟨?_, ?_⟩
    · rintro rfl
      exact (eq_of_form_scalar hvw).symm
    · rintro rfl
      exact (eq_of_form_scalar hvw.symm).symm

private theorem SameForms.contains_scalar (h : SameForms items others) (s : Scalar) :
    items.contains (.scalar s) = others.contains (.scalar s) := by
  rw [Bool.eq_iff_iff, List.contains_iff_mem, List.contains_iff_mem, h.mem_scalar_iff]

theorem SameForms.filter_ne (h : SameForms items others) (s : Scalar) :
    SameForms (items.filter (· != .scalar s)) (others.filter (· != .scalar s)) := by
  induction h with
  | nil => exact .nil
  | @cons v w vs ws hvw _ ih =>
    have hiff : v = .scalar s ↔ w = .scalar s := by
      constructor
      · rintro rfl
        exact eq_of_form_scalar hvw
      · rintro rfl
        exact eq_of_form_scalar hvw.symm
    by_cases hv : v = .scalar s
    · simpa [hv, hiff.mp hv] using ih
    · rw [List.filter_cons, List.filter_cons, if_pos (by simpa using hv),
        if_pos (by simpa using mt hiff.mpr hv)]
      exact .cons hvw ih

theorem form_of_sameForms (p : Bool) (h : SameForms items others) :
    form p (.sequence items) = form p (.sequence others) := by
  have hmap : items.mapM (form false) = others.mapM (form false) := by
    induction h with
    | nil => rfl
    | cons hvw _ ih => rw [List.mapM_cons, List.mapM_cons, hvw, ih]
  rw [form_sequence, form_sequence, hmap]

private theorem form_typeWithoutNull (hv : v.IsJson) (h : form false v = form false w) :
    (typeWithoutNull v).map (form false) = (typeWithoutNull w).map (form false) := by
  cases v with
  | scalar s => rw [eq_of_form_scalar h]
  | mapping ms =>
    obtain ⟨ns, rfl⟩ := mapping_of_form hv h
    exact congrArg some h
  | sequence types =>
    obtain ⟨others, rfl, hall⟩ := sequence_of_form hv h
    have hkept := hall.filter_ne (.text "null")
    simp only [typeWithoutNull]
    generalize types.filter (· != .text "null") = kept at hkept
    generalize others.filter (· != .text "null") = kept' at hkept
    cases hkept with
    | nil => rfl
    | cons hfirst hrest =>
      cases hrest with
      | nil => exact congrArg some hfirst
      | cons hsecond hrest =>
        exact congrArg some (form_of_sameForms false (.cons hfirst (.cons hsecond hrest)))

theorem AlikeMembers.get?_scalar_iff (h : AlikeMembers ms ns) (key : String)
    (hkey : key ∉ documentationKeys) (s : Scalar) :
    Members.get? ms key = some (.scalar s) ↔ Members.get? ns key = some (.scalar s) := by
  rcases h.cases key hkey with ⟨hms, hns⟩ | ⟨v, w, hms, hns, hform⟩
  · rw [hms, hns]
  · rw [hms, hns, Option.some.injEq, Option.some.injEq]
    constructor
    · rintro rfl
      exact eq_of_form_scalar hform
    · rintro rfl
      exact eq_of_form_scalar hform.symm

theorem AlikeMembers.has (h : AlikeMembers ms ns) (key : String)
    (hkey : key ∉ documentationKeys) :
    Members.has ms key = Members.has ns key := by
  rw [Members.has_eq_isSome, Members.has_eq_isSome]
  rcases h.cases key hkey with ⟨hms, hns⟩ | ⟨v, w, hms, hns, -⟩
  · rw [hms, hns]
  · rw [hms, hns]
    rfl

section

variable (hms : (Value.mapping ms).IsJson)

include hms

theorem isJson_of_get? (hv : Members.get? ms key = some v) : v.IsJson :=
  (Value.isJson_mapping_iff.mp hms).2.2 _ (Value.mem_of_get?_eq_some hv)

theorem AlikeMembers.get?_sequence (h : AlikeMembers ms ns) (key : String)
    (hkey : key ∉ documentationKeys) (hget : Members.get? ms key = some (.sequence items)) :
    ∃ others, Members.get? ns key = some (.sequence others) ∧ SameForms items others := by
  rcases h.cases key hkey with ⟨hnone, -⟩ | ⟨v, w, hv, hw, hform⟩
  · simp [hnone] at hget
  · obtain rfl := Option.some.inj (hv.symm.trans hget)
    obtain ⟨others, rfl, hall⟩ := sequence_of_form (isJson_of_get? hms hget) hform
    exact ⟨others, hw, hall⟩

end

theorem isNullable_alike (hms : (Value.mapping ms).IsJson) (hregular : Regular ms)
    (h : AlikeMembers ms ns) : isNullable (.mapping ms) = isNullable (.mapping ns) := by
  have hflag := h.get?_scalar_iff "nullable" (by decide) (.bool true)
  have htypes : typesListNull ms = typesListNull ns := by
    unfold typesListNull
    rcases h.cases "type" (by decide) with ⟨hms', hns'⟩ | ⟨v, w, hv, hw, hform⟩
    · rw [hms', hns']
    · rw [hv, hw]
      cases v with
      | scalar s => rw [eq_of_form_scalar hform]
      | sequence types =>
        obtain ⟨others, rfl, hall⟩ := sequence_of_form (isJson_of_get? hms hv) hform
        exact hall.contains_scalar (.text "null")
      | mapping members =>
        obtain ⟨members', rfl⟩ := mapping_of_form (isJson_of_get? hms hv) hform
        rfl
  have henum : (Members.get? ms "enum").elim (.ok false) listsNull =
      (Members.get? ns "enum").elim (.ok false) listsNull := by
    rcases h.cases "enum" (by decide) with ⟨hms', hns'⟩ | ⟨v, w, hv, hw, -⟩
    · rw [hms', hns']
    · obtain ⟨items, rfl⟩ := Value.isSequence_iff.mp (hregular.enum hv)
      obtain ⟨others, hothers, hall⟩ := h.get?_sequence hms "enum" (by decide) hv
      rw [hv, hothers]
      exact congrArg Except.ok (hall.contains_scalar .null)
  rw [isNullable_eq, isNullable_eq, htypes, henum]
  simp only [hflag]

theorem stripNullable_alike (hms : (Value.mapping ms).IsJson) (hregular : Regular ms)
    (h : AlikeMembers ms ns) {stripped stripped' : Members} (hs : Stripped ms stripped)
    (hs' : Stripped ns stripped') : AlikeMembers stripped stripped' := by
  intro key hkey
  by_cases hflag : key = "nullable"
  · rw [hflag, hs.flag, hs'.flag]
  by_cases htype : key = "type"
  · subst htype
    rw [hs.type, hs'.type]
    rcases h.cases "type" hkey with ⟨hms', hns'⟩ | ⟨v, w, hv, hw, hform⟩
    · rw [hms', hns']
    · rw [hv, hw]
      exact form_typeWithoutNull (isJson_of_get? hms hv) hform
  by_cases henum : key = "enum"
  · subst henum
    rcases h.cases "enum" hkey with ⟨hms', hns'⟩ | ⟨v, w, hv, hw, -⟩
    · rw [hs.enum_none hms', hs'.enum_none hns']
    · obtain ⟨items, rfl⟩ := Value.isSequence_iff.mp (hregular.enum hv)
      obtain ⟨others, hothers, hall⟩ := h.get?_sequence hms "enum" hkey hv
      obtain ⟨elements, helements, hleft⟩ := hs.enum_some hv
      obtain ⟨elements', helements', hright⟩ := hs'.enum_some hothers
      cases helements
      cases helements'
      rw [hleft, hright, Option.map_some, Option.map_some,
        form_of_sameForms _ (hall.filter_ne .null)]
  · rw [hs.other hflag htype henum, hs'.other hflag htype henum]
    exact h key hkey

theorem isReference_alike (hms : (Value.mapping ms).IsJson) (hregular : Regular ms)
    (h : AlikeMembers ms ns) : isReference (.mapping ms) = isReference (.mapping ns) := by
  rw [isReference, isReference, Value.mentions_mapping, Value.mentions_mapping,
    h.has "$ref" (by decide), isNullable_alike hms hregular h]

end OpenApiClient.Schema

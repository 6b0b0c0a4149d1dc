import OpenApiClient.Proofs.EscapedNames
import OpenApiClient.Proofs.PresentedParameters

/-! # Arguments that are null

A parameter whose type admits null may be given null, and the code for it is then evaluated with its name
standing for null. A condition asks whether the name is true or whether it is not null, which it is not
in either case, or compares it, which fails. The value is the name itself or its text; null has no
methods, and nothing can be joined over it. The kind that decides about a parameter is that behind its
optional types, so an integer is compared and dates and arrays are taken for such whether or not the type
admits null. Only where nothing but null stands for a parameter that is not given is it safe from this. -/
namespace OpenApiClient

namespace Code

variable {ident : String}

/-- What code comes to where its name stands for null. -/
inductive NullValue
  | null
  | text
  deriving DecidableEq

/-- What the calls behind a value come to. A text can be made lower case; null has no methods, and no
text joins it, since it is no series of values. -/
def afterCalls : NullValue → List Token → Option NullValue
  | value, [] => some value
  | .text, .mark '.' :: .word ['l', 'o', 'w', 'e', 'r'] :: .mark '(' :: .mark ')' :: rest =>
    afterCalls .text rest
  | _, _ => none

/-- What an expression comes to where its name stands for null, unless it fails. The name comes before
the function that makes a text of a value, if both are spelled the same. -/
def nullValue? (name : List Char) : List Token → Option NullValue
  | .word w :: rest =>
    if w = name then afterCalls .null rest
    else
      match rest with
      | .mark '(' :: .word v :: .mark ')' :: rest =>
        if w = "str".toList ∧ v = name then afterCalls .text rest else none
      | _ => none
  | _ => none

/-- Whether a condition holds where its name stands for null, unless it fails: null is not true and it is
null, and it has no place in an order. -/
def nullTruth? (name : List Char) : List Token → Option Bool
  | [.word w] => if w = name then some false else none
  | [.word w, .word ['i', 's'], .word ['n', 'o', 't'], .word ['N', 'o', 'n', 'e']] =>
    if w = name then some false else none
  | _ => none

def pieces (code : String) : List Token := tokens .between code.toList

example : nullValue? ['a'] (pieces "str(a).lower()") = some .text ∧
    nullValue? ['a'] (pieces "a.isoformat()") = none ∧
    nullTruth? ['a'] (pieces "a is not None") = some false := by decide

theorem pieces_append (hident : IsWord ident) (rest : String)
    (hrest : rest.toList.head?.all (!isWordPart ·)) :
    pieces (ident ++ rest) = .word ident.toList :: pieces rest := by
  rw [pieces, String.toList_append, hident.tokens, tokens_word_end hrest]
  rfl

private theorem nullTruth?_truthy (hident : IsWord ident) :
    nullTruth? ident.toList (pieces ident) = some false := by
  have hpieces := pieces_append hident "" rfl
  rw [String.append_empty] at hpieces
  rw [hpieces]
  exact if_pos rfl

theorem nullTruth?_given (hident : IsWord ident) :
    nullTruth? ident.toList (pieces (ident ++ " is not None")) = some false := by
  have hrest : pieces " is not None" = [.word "is".toList, .word "not".toList,
    .word "None".toList] := by decide
  rw [pieces_append hident _ (by decide), hrest]
  exact if_pos rfl

private theorem nullTruth?_positive (hident : IsWord ident) :
    nullTruth? ident.toList (pieces (ident ++ " > 0")) = none := by
  have hrest : pieces " > 0" = [.mark '>', .word "0".toList] := by decide
  rw [pieces_append hident _ (by decide), hrest]
  rfl

end Code

namespace Operation

open Schema Schema.RegistryM Code

variable {document : Value} {shared : Members} {settings : Settings} {parameter : Value}
  {r t : Registry} {i : TypeId} {p : Parameter} {ident separator : String}

/-- Whether null can be given for a parameter: its condition does not fail on null, and where null is
sent its expression does not. -/
structure NullSafe (p : Parameter) : Prop where
  condition : ∀ c ∈ p.condition, (nullTruth? p.identifier.toList (pieces c)).isSome
  expression : (∀ c ∈ p.condition, nullTruth? p.identifier.toList (pieces c) = some true) →
    (nullValue? p.identifier.toList (pieces p.expression)).isSome

/-- A value is written for null where its kind has no rule but that for texts, or none at all and the
name does not hide the function that makes a text of it. -/
theorem nullValue?_serialized (hident : IsWord ident) (r : Registry) (i : TypeId)
    (rule : Serialization) :
    (nullValue? ident.toList (pieces (serialized r i ident (.text separator) rule))).isSome ↔
      rule = .verbatim ∨ rule = .display ∧ ident ≠ "str" := by
  have hjoined : ∀ rest, nullValue? ident.toList (.literal :: rest) = none := fun _ => rfl
  have hshown : ∀ more, (∃ v, afterCalls .text (pieces more) = some v) →
      ((nullValue? ident.toList (pieces ("str(" ++ ident ++ (")" ++ more)))).isSome ↔
        ident ≠ "str") := by
    rintro more ⟨v, hv⟩
    rw [pieces, tokens_shownText hident more]
    by_cases hstr : ident = "str"
    · subst hstr
      simp [nullValue?, afterCalls]
    · have hne : "str".toList ≠ ident.toList := fun h => hstr (String.toList_injective h).symm
      have hafter : afterCalls .text (tokens .between more.toList) = some v := hv
      rw [nullValue?, if_neg hne]
      simp [hafter, hstr]
  cases rule with
  | calendar =>
    have hpieces : pieces (ident ++ ".isoformat()") = .word ident.toList ::
        [.mark '.', .word "isoformat".toList, .mark '(', .mark ')'] := by
      rw [pieces_append hident _ (by decide)]
      rfl
    rw [serialized, hpieces]
    simp [nullValue?, afterCalls]
  | verbatim =>
    have hpieces := pieces_append hident "" rfl
    rw [String.append_empty] at hpieces
    rw [serialized, hpieces]
    simp [nullValue?, afterCalls, pieces, tokens, Reader.finish]
  | joined =>
    have hliteral : (Value.text separator).literal = Text.quoted separator := rfl
    rw [serialized, hliteral]
    split
    · have hpieces := tokens_joined hident separator ""
      rw [String.append_empty] at hpieces
      rw [pieces, hpieces, hjoined]
      simp
    · have hpieces := tokens_joinedTexts hident separator ""
      rw [String.append_empty] at hpieces
      rw [pieces, hpieces, hjoined]
      simp
  | display =>
    rw [serialized]
    split
    · exact (hshown ".lower()" ⟨.text, by decide⟩).trans (by simp)
    · exact (hshown "" ⟨.text, by decide⟩).trans (by simp)

theorem nullSafe_of_truth {c : String} (hc : p.condition = some c)
    (htruth : nullTruth? p.identifier.toList (pieces c) = some false) : NullSafe p where
  condition c' hc' := by
    obtain rfl := Option.some.inj (hc.symm.trans hc')
    simp [htruth]
  expression hsent := by
    have hfalse := htruth.symm.trans (hsent c hc)
    simp at hfalse

/-- The condition of a parameter that may be left out compares it exactly if it is an integer. -/
theorem condition_cases (kind? : Option Kind) (ident : String) :
    (kind? = some (.primitive .integer) ∧
        presetsOf false kind? ident = (some "0", some (ident ++ " > 0"))) ∨
      (kind? ≠ some (.primitive .integer) ∧ ((presetsOf false kind? ident).2 = some ident ∨
        (presetsOf false kind? ident).2 = some (ident ++ " is not None"))) := by
  rcases kind? with _ | kind
  · exact .inr ⟨nofun, .inr rfl⟩
  · cases kind with
    | primitive p => cases p <;> simp [presetsOf, emptyPreset?, presence]
    | _ => simp [presetsOf, emptyPreset?, presence]

private theorem eq_null_of_presetsOf {required : Bool} {kind? : Option Kind}
    (h : (presetsOf required kind? ident).1 = some "None") :
    (presetsOf required kind? ident).2 = some (ident ++ " is not None") := by
  cases required with
  | true => cases h
  | false =>
    cases hpreset : kind?.bind emptyPreset? with
    | none => rw [presetsOf_null hpreset]
    | some preset =>
      obtain ⟨kind, rfl, hempty⟩ := Option.bind_eq_some_iff.mp hpreset
      rw [presetsOf_preset hempty] at h
      exact absurd (Option.some.inj h) (emptyPreset?_ne_none hempty)

private theorem ruleOf_cases (kind? : Option Kind) :
    (ruleOf kind? = .verbatim ∨ ruleOf kind? = .display ∧ ident ≠ "str") ↔
      (kind? ≠ some (.primitive .date) ∧ kind? ≠ some (.primitive .dateTime) ∧
        kind? ≠ some .array) ∧ (ident = "str" → kind? = some (.primitive .string)) := by
  rcases kind? with _ | kind
  · simp [ruleOf]
  · cases kind with
    | primitive p => cases p <;> simp [ruleOf]
    | _ => simp [ruleOf]

theorem Decided.preset (h : Decided settings t p) :
    p.preset = (presetsOf p.required (t.endKind? p.type) p.identifier).1 :=
  congrArg Prod.fst h.presets

theorem Decided.condition (h : Decided settings t p) :
    p.condition = (presetsOf p.required (t.endKind? p.type) p.identifier).2 :=
  congrArg Prod.snd h.presets

/-- The value of a required parameter is always written. -/
theorem Decided.nullSafe_required_iff (h : Decided settings t p) (hident : IsWord p.identifier)
    (hseparator : settings.arraySeparator = .text separator) (hrequired : p.required = true) :
    NullSafe p ↔ (t.endKind? p.type ≠ some (.primitive .date) ∧
        t.endKind? p.type ≠ some (.primitive .dateTime) ∧ t.endKind? p.type ≠ some .array) ∧
      (p.identifier = "str" → t.endKind? p.type = some (.primitive .string)) := by
  have hnone : p.condition = none := by
    rw [h.condition, hrequired]
    rfl
  have hvalue : NullSafe p ↔ (nullValue? p.identifier.toList (pieces p.expression)).isSome :=
    ⟨fun hsafe => hsafe.expression (by simp [hnone]), fun hvalue => ⟨by simp [hnone], fun _ => hvalue⟩⟩
  rw [hvalue, h.expression, hseparator, nullValue?_serialized hident, h.serialization,
    serializationOf_eq, ruleOf_cases]

/-- Null is never sent for a parameter that may be left out, but only an integer is compared. -/
theorem Decided.nullSafe_optional_iff (h : Decided settings t p) (hident : IsWord p.identifier)
    (hrequired : p.required = false) :
    NullSafe p ↔ t.endKind? p.type ≠ some (.primitive .integer) := by
  have hcondition := h.condition
  rw [hrequired] at hcondition
  rcases condition_cases (t.endKind? p.type) p.identifier with ⟨hkind, hpositive⟩ | ⟨hkind, hsure⟩
  · rw [hpositive] at hcondition
    refine iff_of_false (fun hsafe => ?_) (not_not_intro hkind)
    have hsome := hsafe.condition _ hcondition
    rw [nullTruth?_positive hident] at hsome
    cases hsome
  · refine iff_of_true ?_ hkind
    rcases hsure with htruthy | hgiven
    · exact nullSafe_of_truth (hcondition.trans htruthy) (nullTruth?_truthy hident)
    · exact nullSafe_of_truth (hcondition.trans hgiven) (nullTruth?_given hident)

/-- Null can be given for a parameter exactly if it is required and no date and no array, or may be left
out and is no integer; and the function that makes a text of it must not be hidden by its name. A
parameter that null stands for admits null, and null can be given for it. -/
theorem nullSafe_iff_kind (hr : r.Made) (hseparator : settings.arraySeparator = .text separator)
    (h : outcome (classify document shared settings parameter) r = (.ok p, t)) :
    (NullSafe p ↔
      (p.required = true → (t.baseKind? p.type ≠ some (.primitive .date) ∧
          t.baseKind? p.type ≠ some (.primitive .dateTime) ∧ t.baseKind? p.type ≠ some .array) ∧
        (p.identifier = "str" → t.baseKind? p.type = some (.primitive .string))) ∧
      (p.required = false → t.baseKind? p.type ≠ some (.primitive .integer))) ∧
    (p.preset = some "None" → t.AdmitsNull p.type ∧ NullSafe p) := by
  obtain ⟨-, hdecided, item, -, -, -, -, -, -, hdeclares, -⟩ := classify_decided hr h
  obtain ⟨reserved, -, hidentifier⟩ := hdeclares.identifier
  have hident : IsWord p.identifier := hidentifier ▸ Naming.isWord_identifier reserved p.name
  refine ⟨?_, fun hnull => ⟨hdecided.admitsNull hnull, ?_⟩⟩
  · simp (disch := decide) only [Registry.baseKind?_eq_end, ne_eq]
    cases hrequired : p.required with
    | true => simpa using hdecided.nullSafe_required_iff hident hseparator hrequired
    | false => simpa using hdecided.nullSafe_optional_iff hident hrequired
  · have hgiven := eq_null_of_presetsOf (hdecided.preset.symm.trans hnull)
    exact nullSafe_of_truth (hdecided.condition.trans hgiven) (nullTruth?_given hident)

def nullableQuery (type : String) : Value :=
  withSchema queryDeclaration
    (withType [(.text "nullable", .scalar (.bool true))] (.text type))

theorem nullSafe_iff_kind_number : ∃ p t,
    outcome (classify .empty [] .default (nullableQuery "number")) {} = (.ok p, t) ∧
      p.preset = some "None" ∧ t.AdmitsNull p.type ∧ NullSafe p := by
  have hpreset : (outcome (classify .empty [] .default (nullableQuery "number")) {}).1.map
      Parameter.preset = .ok (some "None") := by decide +kernel
  cases hrun : outcome (classify .empty [] .default (nullableQuery "number")) {} with
  | mk x t =>
    rw [hrun] at hpreset
    obtain ⟨p, rfl, hnull⟩ := except_map_ok_iff.mp hpreset
    exact ⟨p, t, rfl, hnull, (nullSafe_iff_kind .refl rfl hrun).2 hnull⟩

/-- An integer that admits null may be left out when it is not above zero, and null is no more above zero
than below. -/
theorem not_nullSafe_integer : ¬ ∀ (document : Value) (shared : Members) (settings : Settings)
    (parameter : Value) (r t : Registry) (p : Parameter), r.Made →
      outcome (classify document shared settings parameter) r = (.ok p, t) →
        t.AdmitsNull p.type → NullSafe p := by
  intro h
  obtain ⟨hparameter, hoptional⟩ :
      (outcome (classify .empty [] .default (nullableQuery "integer")) {}).1.map
          (fun p => (p.identifier, p.type, p.condition)) = .ok ("q", 1, some "q > 0") ∧
        (outcome (classify .empty [] .default (nullableQuery "integer")) {}).2.body? 1 =
          some (.optional 0) := by
    decide +kernel
  cases hrun : outcome (classify .empty [] .default (nullableQuery "integer")) {} with
  | mk x t =>
    rw [hrun] at hparameter hoptional
    obtain ⟨p, rfl, hfields⟩ := except_map_ok_iff.mp hparameter
    obtain ⟨hident, hrest⟩ := Prod.mk.inj hfields
    obtain ⟨htype, hcondition⟩ := Prod.mk.inj hrest
    have hsafe := h _ _ _ _ _ t p .refl hrun (htype ▸ .optional hoptional)
    have hfails := hsafe.condition _ hcondition
    rw [hident] at hfails
    exact absurd hfails (by decide)

end Operation

end OpenApiClient

import OpenApiClient.Proofs.BaseTypes
import OpenApiClient.Proofs.ListedParameters

/-! # What a parameter is decided by

The declaration of a parameter, but for its schema, gives its name, its place and whether it is required.
Of its type only the end behind aliases and optional types counts, which is the same whether or not the
type was made to admit null: its kind, and for an array whether its items are texts, decide what stands
for the parameter when it is not given, when it is sent, and how it is written. -/
namespace OpenApiClient

open Schema Schema.RegistryM

variable {r s t u : Registry} {i j : TypeId}

namespace Schema

def Registry.endKind? (r : Registry) (i : TypeId) : Option Kind := (r.endBody? i).map Body.kind

/-- A type is of a kind that is no way to another type exactly if its end is. -/
theorem Registry.baseKind?_eq_end {kind : Kind} (hend : kind.isEnd) :
    r.baseKind? i = some kind ↔ r.endKind? i = some kind := by
  rw [endKind?, ← filter_baseKind?, Option.filter_eq_some_iff, and_iff_left hend]

/-- Whether a type admits null of itself: behind aliases there is an optional type. -/
inductive Registry.AdmitsNull (r : Registry) : TypeId → Prop
  | optional {i item : TypeId} (h : r.body? i = some (.optional item)) : AdmitsNull r i
  | synonym {i item : TypeId} (h : r.body? i = some (.synonym item)) (hitem : AdmitsNull r item) :
      AdmitsNull r i

theorem wrap_admitsNull (hr : r.Made) (hi : i < r.entries.size)
    (h : outcome (wrap true i) r = (.ok j, s)) :
    s.Made ∧ r.Extends s ∧ s.AdmitsNull j ∧ s.endBody? j = r.endBody? i := by
  by_cases hoptional : ∃ item, r.body? i = some (.optional item)
  · obtain ⟨item, hitem⟩ := hoptional
    have hsame : outcome (wrap true i) r = (.ok i, r) := by
      rw [wrap, if_pos rfl]
      rcases outcome_optional i r with ⟨_, -, h⟩ | ⟨hnot, -⟩
      · exact h
      · exact absurd hitem (hnot item)
    obtain ⟨hj, rfl⟩ := Prod.mk.inj (hsame.symm.trans h)
    obtain rfl := Except.ok.inj hj
    exact ⟨hr, .refl r, .optional hitem, rfl⟩
  · obtain ⟨_, _, hwrap, hs, hkept, hunnamed⟩ :=
      wrap_made hr hi fun item hitem => hoptional ⟨item, hitem⟩
    obtain ⟨hj, rfl⟩ := Prod.mk.inj (hwrap.symm.trans h)
    obtain rfl := Except.ok.inj hj
    have hend := Registry.endBody?_behind (Registry.behind_of_body hunnamed.body? rfl)
    exact ⟨hs, hkept, .optional hunnamed.body?,
      hend.trans (Registry.endBody?_extends hr.wellFormed hkept hi)⟩

end Schema

namespace Operation

variable {document schema item : Value} {shared : Members} {settings : Settings} {parameter : Value}
  {p : Parameter} {ident hint : String} {required : Bool}

/-! ## What the end of a type decides -/

def ruleOf : Option Kind → Serialization
  | some (.primitive .date) | some (.primitive .dateTime) => .calendar
  | some (.primitive .string) => .verbatim
  | some .array => .joined
  | _ => .display

/-- What stands for a parameter that is not given, and when it is sent, by the kind of its end. -/
def presetsOf (required : Bool) (kind? : Option Kind) (ident : String) :
    Option String × Option String :=
  if required then (none, none)
  else
    match kind?, kind?.bind emptyPreset? with
    | some kind, some preset => (some preset, some (presence kind ident))
    | _, _ => (some "None", some (ident ++ " is not None"))

theorem serializationOf_eq (r : Registry) (i : TypeId) :
    serializationOf r i = ruleOf (r.endKind? i) := by
  rw [serializationOf, Registry.endKind?, ← Registry.filter_baseKind?]
  rcases r.baseKind? i with _ | kind
  · rfl
  · cases kind with
    | primitive p => cases p <;> rfl
    | _ => rfl

private theorem isTextual_eq (r : Registry) (i : TypeId) : isTextual r i =
    (r.endKind? i == some (.primitive .string) || r.endKind? i == some .enumeration) := by
  rw [isTextual, Registry.endKind?, ← Registry.filter_baseKind?]
  rcases r.baseKind? i with _ | kind
  · rfl
  · cases kind with
    | primitive p => cases p <;> rfl
    | _ => rfl

private theorem presetsOf_baseKind? (required : Bool) (r : Registry) (i : TypeId) (ident : String) :
    presetsOf required (r.baseKind? i) ident = presetsOf required (r.endKind? i) ident := by
  rw [Registry.endKind?, ← Registry.filter_baseKind?]
  rcases r.baseKind? i with _ | kind
  · rfl
  · cases kind with
    | primitive p => cases p <;> rfl
    | _ => rfl

/-- The text of a value depends on the kind of the end, and for an array on that of its items. -/
theorem serialized_eq (hkinds : s.endKind? j = r.endKind? i)
    (hitems : ∀ item item', r.endBody? i = some (.array item) → s.endBody? j = some (.array item') →
      s.endKind? item' = r.endKind? item) (ident : String) (separator : Value) :
    serialized s j ident separator (serializationOf s j) =
      serialized r i ident separator (serializationOf r i) := by
  rw [serializationOf_eq, serializationOf_eq, hkinds]
  cases hkind : ruleOf (r.endKind? i) with
  | calendar => rfl
  | verbatim => rfl
  | display =>
    have hboolean : (s.baseKind? j == some (.primitive .boolean)) =
        (r.baseKind? i == some (.primitive .boolean)) := by
      rw [Bool.eq_iff_iff, beq_iff_eq, beq_iff_eq, Registry.baseKind?_eq_end rfl,
        Registry.baseKind?_eq_end rfl, hkinds]
    rw [serialized, serialized, hboolean]
  | joined =>
    have harray : ∀ {r : Registry} {i : TypeId}, ruleOf (r.endKind? i) = .joined →
        ∃ item, r.endBody? i = some (.array item) := by
      intro r i hjoined
      rcases hend : r.endBody? i with _ | b
      · simp [Registry.endKind?, hend, ruleOf] at hjoined
      · cases b with
        | array item => exact ⟨item, rfl⟩
        | primitive p => cases p <;> simp [Registry.endKind?, hend, Body.kind, ruleOf] at hjoined
        | _ => simp [Registry.endKind?, hend, Body.kind, ruleOf] at hjoined
    have hitem : ∀ {r : Registry} {i item : TypeId}, r.endBody? i = some (.array item) →
        r.item? i = some item := fun hend => by
      rw [Registry.item?, (Option.filter_eq_some_iff.mp hend).1]
      rfl
    obtain ⟨item, hr⟩ := harray hkind
    obtain ⟨item', hs⟩ := harray (hkinds ▸ hkind)
    rw [serialized, serialized, hitem hr, hitem hs, Option.any_some, Option.any_some, isTextual_eq,
      isTextual_eq, hitems item item' hr hs]

/-! ## The steps of a classification -/

/-- Whether a parameter is sent depends on its declaration alone; it is logged at most. -/
theorem checkSending_ok {name : String} {place : Place} {sent : Bool}
    (h : outcome (checkSending item name place) r = (.ok sent, s)) :
    (s = r ∨ ∃ record, s = r.logged record) ∧ (sent = true ↔ place = .query ∧
      ∃ style, item.get? "style" = .ok style ∧ style.getD (.text "form") = .text "form") := by
  cases place with
  | query =>
    obtain ⟨style, hstyle, h⟩ := lift_bind_ok_iff.mp h
    dsimp only at h
    split at h
    · rename_i hform
      obtain ⟨allowed, -, h⟩ := lift_bind_ok_iff.mp h
      split at h
      · obtain ⟨_, _, hthrow, -⟩ := bind_ok_iff.mp h
        simp at hthrow
      · obtain ⟨hsent, rfl⟩ := Prod.mk.inj h
        obtain rfl := Except.ok.inj hsent
        exact ⟨.inl rfl, iff_of_true rfl ⟨rfl, style, hstyle, hform⟩⟩
    · rename_i hform
      obtain ⟨hsent, rfl⟩ := Prod.mk.inj h
      obtain rfl := Except.ok.inj hsent
      refine ⟨.inr ⟨_, rfl⟩, iff_of_false Bool.false_ne_true ?_⟩
      rintro ⟨-, style', hstyle', hform'⟩
      exact hform (Except.ok.inj (hstyle.symm.trans hstyle') ▸ hform')
  | cookie =>
    obtain ⟨hsent, rfl⟩ := Prod.mk.inj h
    exact ⟨.inr ⟨_, rfl⟩, by simp [← Except.ok.inj hsent]⟩
  | path =>
    obtain ⟨hsent, rfl⟩ := Prod.mk.inj h
    exact ⟨.inl rfl, by simp [← Except.ok.inj hsent]⟩
  | header =>
    obtain ⟨hsent, rfl⟩ := Prod.mk.inj h
    exact ⟨.inl rfl, by simp [← Except.ok.inj hsent]⟩

theorem presetsOf_null {kind? : Option Kind} (h : kind?.bind emptyPreset? = none) (ident : String) :
    presetsOf false kind? ident = (some "None", some (ident ++ " is not None")) := by
  cases kind? with
  | none => rfl
  | some kind =>
    have hkind : emptyPreset? kind = none := h
    simp [presetsOf, hkind]

theorem presetsOf_preset {kind : Kind} {preset : String} (h : emptyPreset? kind = some preset)
    (ident : String) :
    presetsOf false (some kind) ident = (some preset, some (presence kind ident)) := by
  simp [presetsOf, h]

/-- What is found of a type whose schema is remembered: the type, made to admit null where nothing else
stands for a parameter that is not given. -/
theorem presenceOf_found (hr : r.Made) (hrecalls : r.Recalls schema i) (hi : i < r.entries.size)
    {found : TypeId × Option String × Option String}
    (h : outcome (presenceOf document schema required i ident hint) r = (.ok found, t)) :
    t.Made ∧ r.Extends t ∧ t.endBody? found.1 = r.endBody? i ∧
      found.2 = presetsOf required (r.endKind? i) ident ∧
      (found.2.1 = some "None" → t.AdmitsNull found.1) := by
  rw [← presetsOf_baseKind?]
  cases presenceOf_ok_iff.mp h with
  | required => exact ⟨hr, .refl r, rfl, rfl, by simp⟩
  | preset hkind hpreset =>
    rw [hkind, presetsOf_preset hpreset]
    exact ⟨hr, .refl r, rfl, rfl,
      fun hnull => absurd (Option.some.inj hnull) (emptyPreset?_ne_none hpreset)⟩
  | null hnone htype =>
    rw [hrecalls.resolve] at htype
    obtain ⟨ht, hkept, hnull, hend⟩ := wrap_admitsNull hr hi htype
    exact ⟨ht, hkept, hend, (presetsOf_null hnone ident).symm, fun _ => hnull⟩

/-- What a parameter takes from its declaration, apart from the schema. -/
structure Declares (settings : Settings) (item : Value) (p : Parameter) : Prop where
  name : ∃ raw, item.get? "name" = .ok raw ∧ (raw.getD (.text "")).asText = .ok p.name
  place : ∃ raw, item.get? "in" = .ok raw ∧ Place.ofValue? (raw.getD (.text "query")) = some p.place
  identifier : ∃ reserved, settings.reserved = .ok reserved ∧
    p.identifier = Naming.identifier reserved p.name
  required : ∃ given, item.get "required" = .ok given ∧
    p.required = (decide (p.place = .path) || given.isTruthy)
  description : ∃ given, item.get "description" = .ok given ∧ p.description = given.orBlank
  sent : p.inQueryTable = true ↔ p.place = .query ∧
    ∃ style, item.get? "style" = .ok style ∧ style.getD (.text "form") = .text "form"

structure Decided (settings : Settings) (t : Registry) (p : Parameter) : Prop where
  presets : (p.preset, p.condition) = presetsOf p.required (t.endKind? p.type) p.identifier
  admitsNull : p.preset = some "None" → t.AdmitsNull p.type
  serialization : p.serialization = serializationOf t p.type
  expression : p.expression =
    serialized t p.type p.identifier settings.arraySeparator p.serialization

/-- What a successful classification did: the schema is resolved, the parameter is logged at most, and
then what stands for it is found. -/
theorem classify_steps (h : outcome (classify document shared settings parameter) r = (.ok p, t)) :
    ∃ item component schema hint i s u, lookupParameter shared parameter = .ok (item, component) ∧
      Declares settings item p ∧ parameterSchema item = .ok schema ∧
      outcome (Schema.resolve document none schema false hint) r = (.ok i, s) ∧
      (u = s ∨ ∃ record, u = s.logged record) ∧
      outcome (presenceOf document schema p.required i p.identifier hint) u =
        (.ok (p.type, p.preset, p.condition), t) ∧
      p.serialization = serializationOf t p.type ∧
      p.expression = serialized t p.type p.identifier settings.arraySeparator p.serialization := by
  simp only [classify, lift_bind_ok_iff] at h
  obtain ⟨⟨item, component⟩, hlookup, rawName, hrawName, rawPlace, hrawPlace, h⟩ := h
  dsimp only at h hrawName hrawPlace
  split at h
  · rename_i place hplace
    simp only [pure_bind, lift_bind_ok_iff] at h
    obtain ⟨name, hname, reserved, hreserved, given, hgiven, schema, hschema, h⟩ := h
    obtain ⟨i, s, hresolve, h⟩ := bind_ok_iff.mp h
    rw [outcome_bind_of_ok (outcome_get s)] at h
    obtain ⟨described, -, h⟩ := lift_bind_ok_iff.mp h
    obtain ⟨sent, u, hsent, h⟩ := bind_ok_iff.mp h
    obtain ⟨⟨type, preset, condition⟩, v, hfound, h⟩ := bind_ok_iff.mp h
    rw [outcome_bind_of_ok (outcome_get v)] at h
    simp only [lift_bind_ok_iff, outcome_pure, Prod.mk.injEq, Except.ok.injEq] at h
    obtain ⟨typeText, -, description, hdescription, rfl, rfl⟩ := h
    obtain ⟨hlogged, hsent⟩ := checkSending_ok hsent
    exact ⟨item, component, schema, _, i, s, u, hlookup,
      ⟨⟨rawName, hrawName, hname⟩, ⟨rawPlace, hrawPlace, hplace⟩, ⟨reserved, hreserved, rfl⟩,
        ⟨given, hgiven, rfl⟩, ⟨description, hdescription, rfl⟩, hsent⟩, hschema, hresolve, hlogged,
      hfound, rfl, rfl⟩
  · obtain ⟨_, _, hthrow, -⟩ := bind_ok_iff.mp h
    simp at hthrow

/-- A classified parameter is decided by its declaration and the end of its type, which is that of the
type of its schema. -/
theorem classify_decided (hr : r.Made)
    (h : outcome (classify document shared settings parameter) r = (.ok p, t)) :
    t.Made ∧ Decided settings t p ∧ ∃ item component schema hint i s,
      lookupParameter shared parameter = .ok (item, component) ∧ Declares settings item p ∧
      parameterSchema item = .ok schema ∧
      outcome (Schema.resolve document none schema false hint) r = (.ok i, s) ∧
      s.Made ∧ s.Extends t ∧ i < s.entries.size ∧ t.endBody? p.type = s.endBody? i := by
  obtain ⟨item, component, schema, hint, i, s, u, hlookup, hdeclares, hschema, hresolve, hlogged,
    hfound, hserialization, hexpression⟩ := classify_steps h
  obtain ⟨hs, -, hi⟩ := hr.resolve hresolve
  have hrecalls := recalls_of_resolve hresolve
  -- Whether the parameter is sent is logged at most, and so changes no type.
  have hu : u.Made ∧ u.Recalls schema i ∧ s.Extends u ∧ i < u.entries.size := by
    rcases hlogged with rfl | ⟨record, rfl⟩
    · exact ⟨hs, hrecalls, .refl _, hi⟩
    · exact ⟨hs.logged record, hrecalls.logged record, (Registry.Extends.refl s).logged record, hi⟩
  obtain ⟨humade, hurecalls, hukept, huid⟩ := hu
  obtain ⟨ht, hkept, hend, hpresets, hnull⟩ := presenceOf_found humade hurecalls huid hfound
  have hkind : t.endKind? p.type = u.endKind? i := congrArg (Option.map Body.kind) hend
  refine ⟨ht, ⟨?_, hnull, hserialization, hexpression⟩, item, component, schema, hint, i, s, hlookup,
    hdeclares, hschema, hresolve, hs, hukept.trans hkept, hi, ?_⟩
  · rw [hkind]
    exact hpresets
  · exact hend.trans (Registry.endBody?_extends hs.wellFormed hukept hi)

end Operation

end OpenApiClient

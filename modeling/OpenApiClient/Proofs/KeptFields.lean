import OpenApiClient.Proofs.DeclaredFields
import OpenApiClient.Proofs.Unfoldings

/-! # Fields that extending keeps

The type of a schema that extends others has a field for every property that the schema declares
itself or that one of the others declares. An extension of a single schema is the exception: its
type is that of the other one, and what only the extension declares is lost. -/
namespace OpenApiClient.Schema

open RegistryM

variable {document v w : Value} {ms ns : Members} {subs kept : List Value} {hint key : String}
  {r t : Registry} {id inner limit : TypeId} {ι : Identity} {outer : Layer}

/-! ## Schemas with fields -/

/-- Members of an object that neither refers, extends nor chooses. -/
structure IsObject (ms : Members) : Prop where
  nullable : isNullable (.mapping ms) = .ok false
  plain : ∀ key ∈ ["$ref", "allOf", "oneOf", "anyOf", "enum"], Members.has ms key = false
  type : Members.get? ms "type" = some (.text "object") ∨
    Members.has ms "type" = false ∧ Members.has ms "properties"

/-- Members of a schema that extends others. -/
structure IsExtension (ms : Members) (subs : List Value) : Prop where
  nullable : isNullable (.mapping ms) = .ok false
  plain : Members.has ms "$ref" = false
  members : Members.get? ms "allOf" = some (.sequence subs)

structure IsReferenceTo (ms : Members) (reference : String) : Prop where
  nullable : isNullable (.mapping ms) = .ok false
  reference : Members.get? ms "$ref" = some (.text reference)

/-- Whether the type of a schema keeps all fields: an object, a reference to such a schema, an
extension of several schemas or of none, and one of a single such schema that declares and requires
all that the extension does itself. -/
inductive KeepsFields (document : Value) : Value → Prop
  | object {ms : Members} (h : IsObject ms) : KeepsFields document (.mapping ms)
  | reference {ms : Members} {reference : String} {target : Value} (h : IsReferenceTo ms reference)
      (hlookup : lookup document reference = .ok target) (htarget : KeepsFields document target) :
      KeepsFields document (.mapping ms)
  | merged {ms : Members} {subs : List Value} (h : IsExtension ms subs)
      (hmany : (subs.filter saysMore).length ≠ 1) : KeepsFields document (.mapping ms)
  | alone {ms : Members} {subs : List Value} {only : Value} (h : IsExtension ms subs)
      (honly : subs.filter saysMore = [only])
      (hproperties : ∀ key, ListsProperty key ms → Declares document key only)
      (hrequired : ∀ key, ListsRequired key ms → Requires document key only)
      (h : KeepsFields document only) : KeepsFields document (.mapping ms)

theorem get?_eq_none_of_has (h : Members.has ms key = false) : Members.get? ms key = none := by
  simpa [Members.has] using h

section

variable (hms : (Value.mapping ms).IsJson) (hregular : Regular ms) (h : AlikeMembers ms ns)

include hms hregular h

theorem IsObject.alike (hobject : IsObject ms) : IsObject ns where
  nullable := isNullable_alike hms hregular h ▸ hobject.nullable
  plain := by
    intro key hkey
    have hkept : ∀ key ∈ ["$ref", "allOf", "oneOf", "anyOf", "enum"], key ∉ documentationKeys := by
      decide
    rw [← h.has key (hkept key hkey)]
    exact hobject.plain key hkey
  type := by
    rw [← h.has "type" (by decide), ← h.has "properties" (by decide)]
    exact hobject.type.imp_left (h.get?_scalar_iff "type" (by decide) _).mp

theorem IsExtension.alike (hextension : IsExtension ms subs) :
    ∃ others, IsExtension ns others ∧ SameForms subs others := by
  obtain ⟨others, hothers, hforms⟩ := h.get?_sequence hms "allOf" (by decide) hextension.members
  exact ⟨others, ⟨isNullable_alike hms hregular h ▸ hextension.nullable,
    h.has "$ref" (by decide) ▸ hextension.plain, hothers⟩, hforms⟩

theorem IsReferenceTo.alike {reference : String} (hreference : IsReferenceTo ms reference) :
    IsReferenceTo ns reference :=
  ⟨isNullable_alike hms hregular h ▸ hreference.nullable,
    (h.get?_scalar_iff "$ref" (by decide) _).mp hreference.reference⟩

end

private theorem isReference_of_has (h : Members.has ms "$ref" = false) :
    isReference (.mapping ms) = .ok false := by
  simp [isReference, Value.mentions_mapping, h, bind, Except.bind, pure, Except.pure]

theorem IsReferenceTo.isReference {reference : String} (h : IsReferenceTo ms reference) :
    isReference (.mapping ms) = .ok true := by
  simp [Schema.isReference, Value.mentions_mapping, Members.has, h.reference, h.nullable, bind,
    Except.bind, pure, Except.pure]

theorem IsReferenceTo.identityOf {reference : String} (h : IsReferenceTo ms reference) :
    identityOf (.mapping ms) = .ok (.reference reference) :=
  identityOf_ok_iff.mpr (.inl ⟨h.isReference, reference,
    require_ok_iff.mpr ⟨ms, rfl, h.reference⟩, rfl⟩)

theorem IsObject.layer_eq (h : IsObject ms) :
    layer document (.mapping ms) hint = objectLayer (.mapping ms) hint := by
  have hnone : ∀ key ∈ ["$ref", "allOf", "oneOf", "anyOf", "enum"], Members.get? ms key = none :=
    fun key hkey => get?_eq_none_of_has (h.plain key hkey)
  have hplain : plainLayer (.mapping ms) hint = objectLayer (.mapping ms) hint := by
    rcases h.type with hobject | ⟨htype, hproperties⟩
    · simp [plainLayer, Value.members, hnone "enum" (by simp), hobject, textValues?,
        Value.isTruthy, Scalar.isTruthy, bind, Except.bind, pure, Except.pure]
    · simp [plainLayer, Value.members, hnone "enum" (by simp), get?_eq_none_of_has htype,
        hproperties, textValues?, Value.isTruthy, Scalar.isTruthy, bind, Except.bind, pure,
        Except.pure]
  simp [layer, Value.members, h.nullable, hnone "$ref" (by simp), h.plain "allOf" (by simp),
    hnone "oneOf" (by simp), hnone "anyOf" (by simp), hplain, bind, Except.bind]

theorem IsExtension.layer_eq (h : IsExtension ms subs) :
    layer document (.mapping ms) hint = extensionLayer document (.mapping ms) hint := by
  simp [layer, Value.members, h.nullable, get?_eq_none_of_has h.plain, Members.has, h.members, bind,
    Except.bind]

theorem IsReferenceTo.layer_eq {reference : String} (h : IsReferenceTo ms reference) :
    layer document (.mapping ms) hint = .ok (singleLayer .synonym (refTo reference) hint) := by
  simp [layer, Value.members, h.nullable, h.reference, singleLayer, refTo, bind, Except.bind, pure,
    Except.pure]

private theorem IsExtension.kept_eq (h : IsExtension ms subs)
    (hkept : extended (.mapping ms) = .ok kept) : kept = subs.filter saysMore := by
  obtain ⟨all, elements, hall, helements, -, rfl⟩ := extended_ok hkept
  obtain rfl := Option.some.inj (h.members.symm.trans hall)
  obtain rfl := Except.ok.inj helements
  rfl

/-! ## Fields of a type -/

/-- Whether a type has a body when it is looked through aliases. -/
inductive Registry.LooksThrough (r : Registry) : TypeId → Body → Prop
  | here {id : TypeId} {body : Body} (h : r.body? id = some body)
      (hbody : ∀ inner, body ≠ .synonym inner) : LooksThrough r id body
  | through {id inner : TypeId} {body : Body} (h : r.body? id = some (.synonym inner))
      (hinner : LooksThrough r inner body) : LooksThrough r id body

/-- Whether a type, looked through aliases, has a field for each property that a schema declares,
one that is required if the schema requires it. -/
def HasFields (document : Value) (r : Registry) (v : Value) (id : TypeId) : Prop :=
  ∃ body, r.LooksThrough id body ∧ ∀ key, Declares document key v →
    ∃ f ∈ body.fields, f.key = .text key ∧ (Requires document key v → f.required)

theorem HasFields.imp (h : HasFields document r w id)
    (hproperties : ∀ key, Declares document key v → Declares document key w)
    (hrequired : ∀ key, Requires document key v → Requires document key w) :
    HasFields document r v id := by
  obtain ⟨body, hbody, hfields⟩ := h
  refine ⟨body, hbody, fun key hkey => ?_⟩
  obtain ⟨f, hf, hfkey, hfrequired⟩ := hfields key (hproperties key hkey)
  exact ⟨f, hf, hfkey, fun h => hfrequired (hrequired key h)⟩

theorem HasFields.through (h : HasFields document r v inner)
    (hbody : r.body? id = some (.synonym inner)) : HasFields document r v id := by
  obtain ⟨body, hinner, hfields⟩ := h
  exact ⟨body, .through hbody hinner, hfields⟩

/-- The type of an object has a field for each property that it lists. -/
theorem fields_of_objectLayer {table : Identity → Option TypeId} {ids : List TypeId}
    (h : objectLayer (.mapping ms) hint = .ok outer) (hids : Fills table outer.parts ids) :
    (∀ inner, outer.frame.fill ids ≠ .synonym inner) ∧ ∀ key, ListsProperty key ms →
      ∃ f ∈ (outer.frame.fill ids).fields, f.key = .text key ∧
        (ListsRequired key ms → f.required) := by
  obtain ⟨_, heq, ⟨required, members, hrequired, hproperties, -, rfl⟩ | ⟨hnone, rfl⟩⟩ :=
    objectLayer_ok h
  · obtain rfl := Value.mapping.inj heq
    obtain ⟨fs, hbody, hfields⟩ := fieldsLayer_fill hids
    rw [hbody]
    refine ⟨by simp, ?_⟩
    rintro key ⟨properties, hproperties', hhas⟩
    obtain rfl := Value.mapping.inj (Option.some.inj (hproperties.symm.trans hproperties'))
    obtain ⟨m, hm, hmk⟩ := Members.get?_isSome_iff.mp hhas
    obtain ⟨f, hf, hfield⟩ := (exists_of_forall₂ hfields).1 m hm
    refine ⟨f, hf, hfield.key.trans hmk, ?_⟩
    rintro ⟨names, hnames, hmem⟩
    rw [requiredNames_sequence names hnames, mapM_ok_iff_forall₂] at hrequired
    obtain ⟨name, hname, htext⟩ := (exists_of_forall₂ hrequired).1 _ hmem
    obtain rfl := Except.ok.inj htext
    rw [hfield.required, hmk]
    exact List.any_eq_true.mpr ⟨_, hname, Scalar.sameKey_self _⟩
  · obtain rfl := Value.mapping.inj heq
    refine ⟨by simp [mapLayer, Frame.fill], ?_⟩
    rintro key ⟨properties, hproperties, hhas⟩
    rw [hproperties, Option.getD_some, Value.orEmpty_mapping] at hnone
    obtain rfl := Value.mapping.inj hnone
    cases hhas

structure FieldsFound (document : Value) (r : Registry) (v : Value) : Prop where
  depicted {w : Value} {limit id : TypeId} : Tame document w → Alike v w →
    Depicts document r limit w id → HasFields document r v id
  known {w : Value} {ι : Identity} {id : TypeId} : Tame document w → Alike v w →
    identityOf w = .ok ι → r.Knows ι id → HasFields document r v id

section

variable (hdocument : document.IsJson) (hsound : Sound document r [])

include hsound in
/-- The type of a schema that is no reference is that of a schema of its form. -/
theorem fieldsFound_of_depicted (hv : Tame document (.mapping ms))
    (hplain : Members.has ms "$ref" = false)
    (h : ∀ {ns : Members} {limit id : TypeId}, Tame document (.mapping ns) → AlikeMembers ms ns →
      Depicts document r limit (.mapping ns) id → HasFields document r (.mapping ms) id) :
    FieldsFound document r (.mapping ms) := by
  have hdepicted : ∀ {w : Value} {limit id : TypeId}, Tame document w → Alike (.mapping ms) w →
      Depicts document r limit w id → HasFields document r (.mapping ms) id := by
    intro w limit id hw halike hdepicts
    obtain ⟨ns, rfl, hns⟩ := halike.mapping hv.json
    exact h hw hns hdepicts
  refine ⟨hdepicted, fun {w ι id} hw halike hι hid => ?_⟩
  obtain ⟨x, limit, hx, hdepicts, ⟨text, rfl, -⟩ | ⟨-, -, hform⟩⟩ := hsound.depicted hw hι hid
  · obtain ⟨ns, rfl, hns⟩ := halike.mapping hv.json
    have hisRef := isReference_alike hv.json hv.self hns
    rw [isReference_of_has hplain] at hisRef
    rcases identityOf_ok_iff.mp hι with ⟨htrue, -⟩ | ⟨-, _, -, hshape⟩
    · cases hisRef.trans htrue
    · cases hshape
  · exact hdepicted hx (halike.trans hv.json hw.json (.same hform)) hdepicts

include hsound in
theorem IsObject.fieldsFound (h : IsObject ms) (hv : Tame document (.mapping ms)) :
    FieldsFound document r (.mapping ms) := by
  have hown : ∀ {own : Members → Prop}, Shows document own (.mapping ms) → own ms := by
    intro own hshows
    have hnone : ∀ key ∈ ["$ref", "allOf"], Members.get? ms key = none := fun key hkey =>
      get?_eq_none_of_has (h.plain key (List.mem_append_left ["oneOf", "anyOf", "enum"] hkey))
    cases hshows with
    | own _ hown => exact hown
    | target href => simp [hnone] at href
    | member _ hall => simp [hnone] at hall
  refine fieldsFound_of_depicted hsound hv (h.plain "$ref" (by simp)) fun hns halike hdepicts => ?_
  obtain ⟨hlayer, hbody, hids, -⟩ := hdepicts
  rw [(h.alike hv.json hv.self halike).layer_eq] at hlayer
  obtain ⟨hnot, hfields⟩ := fields_of_objectLayer hlayer hids
  refine ⟨_, .here hbody hnot, fun key hkey => ?_⟩
  obtain ⟨f, hf, hfkey, hrequired⟩ := hfields key
    (respectsAlike_listsProperty key hv.json halike (hown hkey))
  exact ⟨f, hf, hfkey, fun hreq =>
    hrequired (respectsAlike_listsRequired key hv.json halike (hown hreq))⟩

include hsound in
theorem IsReferenceTo.fieldsFound {reference : String} {target : Value}
    (h : IsReferenceTo ms reference) (hlookup : lookup document reference = .ok target)
    (hv : Tame document (.mapping ms)) (hfound : FieldsFound document r target) :
    FieldsFound document r (.mapping ms) := by
  have hshows : ∀ {own : Members → Prop}, Shows document own (.mapping ms) →
      Shows document own target := by
    intro own hshows
    cases hshows with
    | own href => simp [h.reference] at href
    | @target _ text other href hlookup' hother =>
      obtain rfl := Scalar.text.inj (Value.scalar.inj
        (Option.some.inj (h.reference.symm.trans href)))
      obtain rfl := Except.ok.inj (hlookup.symm.trans hlookup')
      exact hother
    | member href => simp [h.reference] at href
  have hknown : ∀ {id : TypeId}, r.Knows (.reference reference) id →
      HasFields document r (.mapping ms) id := by
    intro id hid
    rcases hsound.reference hid with hopen | ⟨other, hother, htame, hdepicts⟩
    · cases hopen
    · obtain rfl := Except.ok.inj (hlookup.symm.trans hother)
      exact (hfound.depicted htame (.refl target) hdepicts).imp (fun _ => hshows) fun _ => hshows
  constructor
  · intro w limit id hw halike hdepicts
    obtain ⟨ns, rfl, hns⟩ := halike.mapping hv.json
    obtain ⟨hlayer, hbody, hids, htable⟩ := hdepicts
    rw [(h.alike hv.json hv.self hns).layer_eq] at hlayer
    obtain rfl := Except.ok.inj hlayer
    obtain ⟨j, _, ⟨ι, hι, hj⟩, hnil, rfl⟩ := List.forall₂_cons_left_iff.mp hids
    cases hnil
    obtain rfl : ι = .reference reference := by
      have hrefTo : Schema.identityOf (refTo reference) = .ok (.reference reference) := rfl
      exact Except.ok.inj (hι.symm.trans hrefTo)
    exact (hknown (htable hj).1).through hbody
  · intro w ι id hw halike hι hid
    obtain ⟨ns, rfl, hns⟩ := halike.mapping hv.json
    obtain rfl := Except.ok.inj (hι.symm.trans (h.alike hv.json hv.self hns).identityOf)
    exact hknown hid

omit hsound in
include hdocument in
/-- The layer of a schema that is alike to an extension is that of one that extends alike
schemas. -/
theorem IsExtension.layer_ok (h : IsExtension ms subs) (hv : Tame document (.mapping ms))
    (hw : Tame document (.mapping ns)) (halike : AlikeMembers ms ns)
    (hlayer : layer document (.mapping ns) hint = .ok outer) :
    ∃ kept, extended (.mapping ns) = .ok kept ∧ SameForms (subs.filter saysMore) kept ∧
      (∀ sub ∈ kept, Tame document sub) ∧
      ((∃ only, kept = [only] ∧ outer = singleLayer .synonym only hint) ∨
        kept.length ≠ 1 ∧ ∃ f, gather document kept (.mapping ns) = .ok f ∧
          objectLayer f.toObject hint = .ok outer) := by
  obtain ⟨others, hothers, hforms⟩ := h.alike hv.json hv.self halike
  rw [hothers.layer_eq] at hlayer
  obtain ⟨kept, hkept, hlayer⟩ := except_bind_ok_iff.mp hlayer
  have hjson : ∀ {ms : Members} {subs : List Value}, IsExtension ms subs →
      Tame document (.mapping ms) → ∀ sub ∈ subs, sub.IsJson := fun hext htame =>
    Value.isJson_sequence_iff.mp (isJson_of_get? htame.json hext.members)
  have hsame : SameForms (subs.filter saysMore) kept :=
    hothers.kept_eq hkept ▸ hforms.filter_isRemark (hjson h hv) (hjson hothers hw)
  refine ⟨kept, hkept, hsame, hw.extended hdocument hkept, ?_⟩
  split at hlayer
  · obtain rfl := Except.ok.inj hlayer
    exact .inl ⟨_, rfl, rfl⟩
  · rename_i hmany
    refine .inr ⟨fun hlength => ?_, except_bind_ok_iff.mp hlayer⟩
    obtain ⟨only, rfl⟩ := List.length_eq_one_iff.mp hlength
    exact hmany only rfl

include hdocument hsound

/-- An extension of several schemas has the fields of them all. -/
theorem IsExtension.fieldsFound (h : IsExtension ms subs)
    (hmany : (subs.filter saysMore).length ≠ 1) (hv : Tame document (.mapping ms)) :
    FieldsFound document r (.mapping ms) := by
  refine fieldsFound_of_depicted hsound hv h.plain fun hns halike hdepicts => ?_
  obtain ⟨hlayer, hbody, hids, -⟩ := hdepicts
  obtain ⟨kept, hkept, hforms, -, ⟨only, rfl, -⟩ | ⟨-, f, hf, houter⟩⟩ :=
    h.layer_ok hdocument hv hns halike hlayer
  · exact absurd hforms.length_eq hmany
  · have href := get?_eq_none_of_has (halike.has "$ref" (by decide) ▸ h.plain)
    obtain ⟨hnot, hfields⟩ := fields_of_objectLayer houter hids
    refine ⟨_, .here hbody hnot, fun key hkey => ?_⟩
    have hproperty := (gathers_properties key).gather
      (hkey.alike (respectsAlike_listsProperty key) hv.json (.members halike)) href hkept hf
    obtain ⟨field, hfield, hfieldKey, hrequired⟩ := hfields key ⟨_, rfl, hproperty⟩
    refine ⟨field, hfield, hfieldKey, fun hreq => hrequired ⟨_, rfl, ?_⟩⟩
    exact (gathers_required key).gather
      (hreq.alike (respectsAlike_listsRequired key) hv.json (.members halike)) href hkept hf

/-- An extension of a single schema has the fields of that one. -/
theorem IsExtension.fieldsFound_alone {os : Members} (h : IsExtension ms subs)
    (honly : subs.filter saysMore = [.mapping os]) (hv : Tame document (.mapping ms))
    (hproperties : ∀ key, ListsProperty key ms → Declares document key (.mapping os))
    (hrequired : ∀ key, ListsRequired key ms → Requires document key (.mapping os))
    (hfound : FieldsFound document r (.mapping os)) : FieldsFound document r (.mapping ms) := by
  have hinner : ∀ {own : Members → Prop} {P : Flat → Prop}, Gathers own P →
      (own ms → Shows document own (.mapping os)) → Shows document own (.mapping ms) →
      Shows document own (.mapping os) := by
    intro own P hP hown hshows
    cases hshows with
    | own _ hlists => exact hown hlists
    | target href => simp [get?_eq_none_of_has h.plain] at href
    | @member _ subs' sub _ hall hsub hshows =>
      obtain rfl := Value.sequence.inj (Option.some.inj (h.members.symm.trans hall))
      have hmem : sub ∈ subs.filter saysMore :=
        List.mem_filter.mpr ⟨hsub, hP.saysMore hshows⟩
      rw [honly, List.mem_singleton] at hmem
      exact hmem ▸ hshows
  refine fieldsFound_of_depicted hsound hv h.plain fun hns halike hdepicts => ?_
  obtain ⟨hlayer, hbody, hids, htable⟩ := hdepicts
  obtain ⟨kept, -, hforms, htame, ⟨other, rfl, rfl⟩ | ⟨hlength, -⟩⟩ :=
    h.layer_ok hdocument hv hns halike hlayer
  · rw [honly] at hforms
    obtain ⟨hform, -⟩ := List.forall₂_cons.mp hforms
    obtain ⟨j, _, ⟨ι, hι, hj⟩, hnil, rfl⟩ := List.forall₂_cons_left_iff.mp hids
    cases hnil
    have hjson : (Value.mapping os).IsJson :=
      Value.isJson_sequence_iff.mp (isJson_of_get? hv.json h.members) _
        (List.mem_of_mem_filter (honly ▸ List.mem_cons_self))
    obtain ⟨os', rfl⟩ := mapping_of_form hjson hform
    rw [Value.orEmpty_mapping] at hι
    have hhas := hfound.known (htame _ List.mem_cons_self) (.same hform) hι (htable hj).1
    exact (hhas.through hbody).imp (fun key => hinner (gathers_properties key) (hproperties key))
      fun key => hinner (gathers_required key) (hrequired key)
  · rw [honly] at hforms
    exact absurd hforms.length_eq.symm hlength

theorem KeepsFields.fieldsFound (h : KeepsFields document v) (hv : Tame document v) :
    FieldsFound document r v := by
  induction h with
  | object h => exact h.fieldsFound hsound hv
  | @reference ms reference target h hlookup _ ih =>
    have hrequire := require_ok_iff.mpr ⟨ms, rfl, h.reference⟩
    exact h.fieldsFound hsound hlookup hv
      (ih (hv.leads hdocument (.target h.isReference hrequire hlookup)))
  | merged h hmany => exact h.fieldsFound hdocument hsound hmany hv
  | @alone ms subs only h honly hproperties hrequired hkeeps ih =>
    obtain ⟨os, rfl⟩ : ∃ os, only = .mapping os := by cases hkeeps <;> exact ⟨_, rfl⟩
    have hmem : .mapping os ∈ subs := List.mem_of_mem_filter (honly ▸ List.mem_cons_self)
    have hrequire := require_ok_iff.mpr ⟨ms, rfl, h.members⟩
    exact h.fieldsFound_alone hdocument hsound honly hv hproperties hrequired
      (ih (hv.follows hdocument (.member hrequire rfl hmem)))

end

/-- After any history in which no call failed, the type of a schema that keeps its fields has one
for every property that the schema declares, or a schema that it extends; it is required if one of
them lists it as required. -/
theorem declared_fields_kept (preferred : Option String) (hint : String)
    (hdocument : document.IsJson) {calls : List Call} {ids : List TypeId}
    (hcalls : ∀ call ∈ calls, Tame document call.schema.orEmpty) (hv : Tame document v)
    (hkeeps : KeepsFields document v)
    (hr : outcome (calls.mapM (Call.run document)) {} = (.ok ids, r))
    (h : outcome (Schema.resolve document preferred v false hint) r = (.ok id, t)) :
    HasFields document t v id := by
  obtain ⟨ms, rfl⟩ : ∃ ms, v = .mapping ms := by cases hkeeps <;> exact ⟨_, rfl⟩
  have htame : Tame document (Value.mapping ms).orEmpty := by rwa [Value.orEmpty_mapping]
  obtain ⟨inner, s, hs, -, -, hwraps, hcase⟩ :=
    resolve_sound hdocument htame (calls_sound hdocument hcalls sound_empty hr) h
  rw [Value.orEmpty_mapping] at hcase
  have hfound := hkeeps.fieldsFound hdocument hs hv
  cases hwraps with
  | same =>
    rcases hcase with ⟨-, ι, hι, hid⟩ | ⟨-, limit, hdepicts⟩
    · exact hfound.known hv (.refl _) hι hid
    · exact hfound.depicted hv (.refl _) hdepicts
  | optional hnullable => cases hnullable

def animalSchema : Value :=
  .mapping [(.text "type", .text "object"),
    (.text "properties", .mapping [(.text "name", typed "string")]),
    (.text "required", .sequence [.text "name"])]

def animalDocument : Value := .mapping [(.text "Animal", animalSchema)]

def dogMembers : Members :=
  [(.text "allOf", .sequence [refTo "#/Animal", declaring [(.text "tail", typed "number")]]),
    (.text "properties", .mapping [(.text "age", typed "integer")]),
    (.text "required", .sequence [.text "age"])]

def animalCall : Call := ⟨none, animalSchema, false, ""⟩

theorem declared_fields_kept_dog : ∃ ids r id t,
    outcome ([animalCall].mapM (Call.run animalDocument)) {} = (.ok ids, r) ∧
    outcome (Schema.resolve animalDocument none (.mapping dogMembers) false "Dog") r = (.ok id, t) ∧
    KeepsFields animalDocument (.mapping dogMembers) ∧
    (∀ key ∈ ["name", "tail", "age"], Declares animalDocument key (.mapping dogMembers)) ∧
    (∀ key ∈ ["name", "age"], Requires animalDocument key (.mapping dogMembers)) ∧
    HasFields animalDocument t (.mapping dogMembers) id := by
  have hregular : AllRegular animalDocument := by decide
  have hcalls : ∀ call ∈ [animalCall], Tame animalDocument call.schema.orEmpty := by
    intro call hcall
    obtain rfl := List.mem_singleton.mp hcall
    exact tame_of_allRegular hregular (by decide) (by decide)
  have hkeeps : KeepsFields animalDocument (.mapping dogMembers) :=
    .merged ⟨rfl, rfl, rfl⟩ (by decide)
  refine ⟨_, _, _, _, rfl, rfl, hkeeps, ?_, ?_, declared_fields_kept none "Dog" (by decide)
    hcalls (tame_of_allRegular hregular (by decide) (by decide)) hkeeps rfl rfl⟩
  · simp only [List.forall_mem_cons]
    exact ⟨.member rfl rfl (.head _) (.target rfl rfl (.own rfl ⟨_, rfl, rfl⟩)),
      .member rfl rfl (.tail _ (.head _)) (.own rfl ⟨_, rfl, rfl⟩), .own rfl ⟨_, rfl, rfl⟩, by simp⟩
  · simp only [List.forall_mem_cons]
    exact ⟨.member rfl rfl (.head _) (.target rfl rfl (.own rfl ⟨_, rfl, .head _⟩)),
      .own rfl ⟨_, rfl, .head _⟩, by simp⟩

def aloneMembers : Members :=
  [(.text "allOf", .sequence [animalSchema]),
    (.text "properties", .mapping [(.text "age", typed "integer")]),
    (.text "required", .sequence [.text "age"])]

/-- An extension of a single object is an alias of its type, and what the extension declares itself
is lost. -/
theorem own_fields_lost : ∃ flat id t, flatten .empty (.mapping aloneMembers) = .ok flat ∧
    outcome (Schema.resolve .empty none (.mapping aloneMembers) false "") {} = (.ok id, t) ∧
    IsExtension aloneMembers [animalSchema] ∧ KeepsFields .empty animalSchema ∧
    Declares .empty "age" (.mapping aloneMembers) ∧
    ¬ HasFields .empty t (.mapping aloneMembers) id := by
  have hdeclares : Declares .empty "age" (.mapping aloneMembers) := .own rfl ⟨_, rfl, rfl⟩
  refine ⟨_, _, _, rfl, rfl, ⟨rfl, rfl, rfl⟩, .object ⟨rfl, by decide, .inl rfl⟩, hdeclares, ?_⟩
  rintro ⟨body, hbody, hfields⟩
  obtain ⟨f, hf, hkey, -⟩ := hfields "age" hdeclares
  have hobject : body = .object [⟨.text "name", 0, true, .text ""⟩] := by
    cases hbody with
    | here h hnot => exact absurd (Option.some.inj h).symm (hnot _)
    | through h hinner =>
      obtain rfl := Body.synonym.inj (Option.some.inj h)
      cases hinner with
      | here h => exact (Option.some.inj h).symm
      | through h => cases Option.some.inj h
  subst hobject
  obtain rfl := List.mem_singleton.mp hf
  exact absurd hkey (by decide)

end OpenApiClient.Schema

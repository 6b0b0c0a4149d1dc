import OpenApiClient.Proofs.BlankDescriptions
import OpenApiClient.Proofs.FreeFlattening
import OpenApiClient.Proofs.PartClosure

/-! # Layers of schemas with blank descriptions

A schema with blank descriptions has the layer of the schema, with the descriptions in it blank. The
references of the schema and of the document have to name schemas of the document: a reference may
lead to any place otherwise, also to one where a schema is read as a list of names. -/
namespace OpenApiClient.Schema

variable {document schema v : Value} {ms : Members} {hint : String} {P : Value → Prop} {fuel : Nat}

theorem get?_blanked_of_ne (ms : Members) (key : String) (hdescription : key ≠ "description")
    (hproperties : key ≠ "properties") :
    Members.get? (ms.blanked false) key = (Members.get? ms key).map Value.blanked := by
  rw [Members.get?_blanked]
  cases Members.get? ms key with
  | none => rfl
  | some v => exact congrArg some (Value.blankedMember_of_ne hdescription hproperties v)

theorem get_blanked_of_ne (v : Value) (key : String) (hdescription : key ≠ "description")
    (hproperties : key ≠ "properties") : v.blanked.get key = (v.get key).map Value.blanked := by
  rw [Value.get_blanked]
  cases v.get key with
  | error fault => rfl
  | ok x => exact congrArg Except.ok (Value.blankedMember_of_ne hdescription hproperties x)

theorem require_blanked_of_ne (v : Value) (key : String) (hdescription : key ≠ "description")
    (hproperties : key ≠ "properties") :
    v.blanked.require key = (v.require key).map Value.blanked := by
  rw [Value.require_blanked]
  cases v.require key with
  | error fault => rfl
  | ok x => exact congrArg Except.ok (Value.blankedMember_of_ne hdescription hproperties x)

theorem get_properties_blanked (v : Value) :
    v.blanked.get "properties" = (v.get "properties").map (Value.blankedIn true) := by
  rw [Value.get_blanked]
  cases v.get "properties" with
  | error fault => rfl
  | ok x => exact congrArg Except.ok (Value.blankedMember_properties x)

/-- Setting a member that holds a schema, or what has no descriptions of its own. -/
theorem set_blanked_of_ne (ms : Members) (key : String) (hdescription : key ≠ "description")
    (hproperties : key ≠ "properties") (v : Value) :
    Members.set (ms.blanked false) (.text key) v.blanked =
      (Members.set ms (.text key) v).blanked false := by
  rw [← Members.set_text_blanked, Value.blankedMember_of_ne hdescription hproperties]

/-! ## Null -/

private theorem listsNull_blanked (v : Value) : listsNull v.blanked = listsNull v := by
  cases v with
  | scalar s => simp
  | sequence items =>
    rw [Value.blanked, Value.blankedIn_sequence, listsNull, Value.contains_scalar_blanked, listsNull]
  | mapping ms => simp [listsNull, Members.blanked, Function.comp_def]

private theorem typesListNull_blanked (ms : Members) :
    typesListNull (ms.blanked false) = typesListNull ms := by
  rw [typesListNull, get?_blanked_of_ne ms "type" (by decide) (by decide), typesListNull]
  rcases Members.get? ms "type" with _ | ⟨s | types | members⟩
  · rfl
  · simp
  · simp only [Option.map_some, Value.blanked, Value.blankedIn_sequence]
    exact Value.contains_scalar_blanked types (.text "null")
  · simp

theorem isNullable_blanked (v : Value) : isNullable v.blanked = isNullable v := by
  cases v with
  | scalar s => simp
  | sequence items => simp [Value.blanked, isNullable, Value.members]
  | mapping ms =>
    have hflag : Members.get? (Members.blanked false ms) "nullable" = some (.bool true) ↔
        Members.get? ms "nullable" = some (.bool true) := by
      rw [get?_blanked_of_ne ms "nullable" (by decide) (by decide)]
      simp [Value.blanked]
    rw [Value.blanked_mapping, isNullable_eq, isNullable_eq, typesListNull_blanked,
      get?_blanked_of_ne ms "enum" (by decide) (by decide)]
    simp only [hflag]
    cases Members.get? ms "enum" with
    | none => rfl
    | some values => simp only [Option.map_some, Option.elim_some, listsNull_blanked]

theorem filter_ne_blanked (items : List Value) (s : Scalar) :
    (items.map Value.blanked).filter (· != .scalar s) =
      (items.filter (· != .scalar s)).map Value.blanked := by
  rw [List.filter_map]
  congr 1
  refine List.filter_congr fun v _ => ?_
  rw [Bool.eq_iff_iff]
  simp [Value.blanked]

private theorem stripTypes_blanked (ms : Members) :
    stripTypes (ms.blanked false) = (stripTypes ms).blanked false := by
  have hset := set_blanked_of_ne ms "type" (by decide) (by decide)
  rw [stripTypes, get?_blanked_of_ne ms "type" (by decide) (by decide), stripTypes]
  rcases Members.get? ms "type" with _ | ⟨s | types | members⟩
  · rfl
  · simp
  · have hkept : (types.map Value.blanked).filter (· != .text "null") =
        (types.filter (· != .text "null")).map Value.blanked :=
      filter_ne_blanked types (.text "null")
    simp only [Option.map_some, Value.blanked, Value.blankedIn_sequence] at hkept ⊢
    rw [hkept]
    generalize types.filter (· != .text "null") = kept
    rcases kept with _ | ⟨only, _ | ⟨second, others⟩⟩
    · exact Members.erase_blanked false ms "type"
    · exact hset only
    · have hrest := hset (.sequence (only :: second :: others))
      rwa [Value.blanked, Value.blankedIn_sequence] at hrest
  · simp

private theorem stripNullable_blanked (v : Value) :
    stripNullable v.blanked = (stripNullable v).map Value.blanked := by
  rw [stripNullable, Value.blanked, Value.members_blankedIn, stripNullable]
  refine bind_map fun ms _ => ?_
  rw [Members.erase_blanked, stripTypes_blanked]
  generalize stripTypes (Members.erase ms "nullable") = stripped
  dsimp only
  rw [get?_blanked_of_ne stripped "enum" (by decide) (by decide)]
  cases Members.get? stripped "enum" with
  | none => simp [pure, Except.pure, Except.map]
  | some values =>
    simp only [Option.map_some, Value.blanked, Value.elements_blankedIn]
    refine bind_map fun elements _ => ?_
    have hset := set_blanked_of_ne stripped "enum" (by decide) (by decide)
      (.sequence (elements.filter (· != .null)))
    have hkept : (elements.map Value.blanked).filter (· != .null) =
        (elements.filter (· != .null)).map Value.blanked := filter_ne_blanked elements .null
    rw [Value.blanked, Value.blankedIn_sequence, ← hkept] at hset
    simp only [hset, pure, Except.pure, Except.map, Value.blanked_mapping]

theorem isReference_blanked (v : Value) : isReference v.blanked = isReference v := by
  rw [isReference, isNullable_blanked, Value.blanked, Value.mentions_blankedIn, isReference]

/-! ## Flattening -/

def Flat.blanked (f : Flat) : Flat :=
  ⟨f.properties.blanked true, f.required.map Value.blanked⟩

private theorem declared_blanked (v : Value) : declared v.blanked = (declared v).map Flat.blanked := by
  rw [declared, get_properties_blanked, get_blanked_of_ne v "required" (by decide) (by decide),
    declared]
  refine bind_map fun properties _ => ?_
  rw [Value.orEmpty_blankedIn, Value.entries_blankedIn]
  refine bind_map fun members _ => bind_map fun required _ => ?_
  rw [Value.blanked, Value.orNone_blankedIn, Value.elements_blankedIn]
  exact bind_map fun names _ => rfl

theorem add_blanked (f : Flat) (v : Value) :
    f.blanked.add v.blanked = (f.add v).map Flat.blanked := by
  rw [add_eq, declared_blanked, add_eq]
  cases declared v with
  | error fault => rfl
  | ok g =>
    simp only [Except.map, Flat.blanked, Members.setAll_blanked, List.map_append]

private theorem toSchema_blanked (f : Flat) : f.blanked.toSchema = f.toSchema.blanked := by
  simp [Flat.toSchema, Flat.blanked, Members.blanked, Value.blankedMember, Value.blankedIn_mapping]

private theorem toObject_blanked (f : Flat) : f.blanked.toObject = f.toObject.blanked := by
  simp [Flat.toObject, Flat.blanked, Members.blanked, Value.blankedMember, Value.blankedIn_mapping]

/-- A property that a schema hands on, and that lets references name schemas of the document. -/
structure Refers (document : Value) (P : Value → Prop) : Prop extends PartClosed document P where
  names {v : Value} {reference : String} :
    P v → v.require "$ref" = .ok (.text reference) → NamesSchema reference

private theorem followRefs_blanked (hP : Refers document P) {seen : List String} (h : P v) :
    followRefs document.blankedDocument fuel seen v.blanked =
      (followRefs document fuel seen v).map Value.blanked := by
  induction fuel generalizing seen v with
  | zero => rfl
  | succ fuel ih =>
    rw [followRefs, followRefs, Value.blanked, Value.mentions_blankedIn]
    refine bind_eq_map fun mentions => ?_
    cases mentions with
    | false => rfl
    | true =>
      simp only [if_true]
      rw [← Value.blanked, require_blanked_of_ne v "$ref" (by decide) (by decide)]
      refine bind_map fun target htarget => ?_
      rw [Value.blanked, Value.asText_blankedIn]
      cases hreference : target.asText with
      | error fault => rfl
      | ok reference =>
        obtain rfl := asText_ok_iff.mp hreference
        simp only [bind, Except.bind]
        split
        · rfl
        · rw [lookup_blankedDocument (hP.names h htarget)]
          exact bind_map fun found hfound => ih (hP.lookup hfound)

theorem gatherWith_blanked {f g : Value → Except Fault Value} {subs : List Value}
    (h : ∀ sub ∈ subs, g sub.blanked = (f sub).map Value.blanked) :
    gatherWith g (subs.map Value.blanked) = (gatherWith f subs).map Flat.blanked := by
  refine foldlM_map (h := Flat.blanked) (fun sub hsub flat => ?_) {}
  rw [h sub hsub]
  exact bind_map fun inner _ => add_blanked flat inner

private theorem flattenEnd_blanked (hP : Refers document P) {f g : Value → Except Fault Value}
    {last : Value} (h : P last) (hfg : ∀ sub, P sub → g sub.blanked = (f sub).map Value.blanked) :
    flattenEnd g last.blanked = (flattenEnd f last).map Value.blanked := by
  rw [flattenEnd, flattenEnd, Value.blanked, Value.mentions_blankedIn]
  refine bind_eq_map fun mentions => ?_
  cases mentions with
  | false => rfl
  | true =>
    simp only [if_true]
    rw [← Value.blanked, require_blanked_of_ne last "allOf" (by decide) (by decide)]
    refine bind_map fun all hall => ?_
    obtain ⟨ms, rfl, hget⟩ := require_ok_iff.mp hall
    rw [Value.blanked, Value.elements_blankedIn]
    refine bind_map fun subs hsubs => ?_
    rw [gatherWith_blanked fun sub hsub => hfg sub (hP.elements (hP.get? h hget) hsubs sub hsub)]
    refine bind_map fun gathered _ => ?_
    rw [add_blanked]
    exact bind_map fun flat _ => congrArg Except.ok (toSchema_blanked flat)

private theorem flattenFreely_blanked (hP : Refers document P) (h : P v) :
    flattenFreely document.blankedDocument fuel v.blanked =
      (flattenFreely document fuel v).map Value.blanked := by
  induction fuel generalizing v with
  | zero => rfl
  | succ fuel ih =>
    rw [flattenFreely, flattenFreely, Value.weight_blankedDocument, followRefs_blanked hP h]
    exact bind_map fun last hlast => flattenEnd_blanked hP (hP.followRefs h hlast) fun sub => ih

private theorem flatten_blanked (hP : Refers document P) (h : P v) :
    flatten document.blankedDocument v.blanked = (flatten document v).map Value.blanked := by
  rw [flatten_eq_freely, flatten_eq_freely, Value.weight_blankedDocument, Value.blanked,
    Value.weight_blankedIn]
  exact flattenFreely_blanked hP h

private theorem gather_blanked (hP : Refers document P) {subs : List Value} (h : ∀ sub ∈ subs, P sub)
    (v : Value) : gather document.blankedDocument (subs.map Value.blanked) v.blanked =
      (gather document subs v).map Flat.blanked := by
  have hgathered := gatherWith_blanked fun sub hsub => flatten_blanked hP (h sub hsub)
  refine (congrArg (· >>= fun gathered => gathered.add v.blanked) hgathered).trans ?_
  exact bind_map fun gathered _ => add_blanked gathered v

private theorem isRemark_blanked (v : Value) : isRemark v.blanked = isRemark v := by
  have hkeys : ∀ keys : List Value, areRemarks (keys.map Value.blanked) = areRemarks keys := by
    intro keys
    induction keys with
    | nil => rfl
    | cons key rest ih =>
      rw [List.map_cons, areRemarks, areRemarks, ih, Value.blanked, Value.asScalar_blankedIn]
  rw [isRemark, Value.blanked, Value.elements_blankedIn, isRemark]
  cases v.elements with
  | error fault => rfl
  | ok keys => exact hkeys keys

/-! ## Layers -/

def asBlank (v : Value) : Value := v.blankedMember false (.text "description")

theorem asBlank_of_not_isText (h : v.isText = false) : asBlank v = v.blanked := by
  rw [asBlank, Value.blankedMember, h, Bool.and_false, if_neg Bool.false_ne_true]
  rfl

theorem orBlank_asBlank (v : Value) : (asBlank v).orBlank = asBlank v.orBlank := by
  cases htext : v.isText with
  | true =>
    obtain ⟨text, rfl⟩ := Value.exists_text_of_isText htext
    have hblank : ∀ text, asBlank (.text text) = .text "" := fun _ => rfl
    rcases Value.isTruthy_orBlank_or (.text text) with h | h
    · rw [h, hblank]
      rfl
    · rw [h, hblank, hblank]
      rfl
  | false =>
    rw [asBlank_of_not_isText htext, Value.orBlank, Value.blanked, Value.isTruthy_blankedIn,
      Value.orBlank]
    split
    · rw [asBlank_of_not_isText htext, Value.blanked]
    · rfl

def Part.blanked (p : Part) : Part := { p with schema := p.schema.blanked }

def Frame.blanked : Frame → Frame
  | object properties => .object (properties.map fun p => (p.1, p.2.1, asBlank p.2.2))
  | frame => frame

def Layer.blanked (outer : Layer) : Layer :=
  ⟨outer.frame.blanked, outer.parts.map Part.blanked⟩

private theorem propertyDescription_blanked (v : Value) :
    propertyDescription v.blanked = asBlank (propertyDescription v) := by
  have hempty : v.blanked.orEmpty = v.orEmpty.blanked := Value.orEmpty_blankedIn false v
  rw [propertyDescription, hempty, Value.get_blanked, propertyDescription]
  cases v.orEmpty.get "description" with
  | error fault => rfl
  | ok description => exact orBlank_asBlank description

private theorem requiredNames_blanked (v : Value) : requiredNames v.blanked = requiredNames v := by
  have hscalar : Value.asScalar ∘ Value.blanked = Value.asScalar := by
    funext name
    exact Value.asScalar_blankedIn false name
  rw [requiredNames, get_blanked_of_ne v "required" (by decide) (by decide), requiredNames]
  cases v.get "required" with
  | error fault => rfl
  | ok required =>
    simp only [Except.map, bind, Except.bind]
    rw [Value.blanked, Value.orNone_blankedIn, Value.elements_blankedIn]
    cases required.orNone.elements with
    | error fault => rfl
    | ok names =>
      simp only [Except.map]
      rw [List.mapM_map, hscalar]

theorem objectLayer_blanked (v : Value) (hint : String) :
    objectLayer v.blanked hint = (objectLayer v hint).map Layer.blanked := by
  rw [objectLayer, get_properties_blanked, objectLayer]
  refine bind_map fun properties _ => ?_
  dsimp only
  rw [Value.orEmpty_blankedIn, Value.isTruthy_blankedIn]
  split
  · rw [requiredNames_blanked, Value.members_blankedIn]
    refine bind_eq_map fun required => bind_map fun members _ => ?_
    simp only [Members.blanked, List.map_map, Function.comp_def, Value.blankedMember_true,
      propertyDescription_blanked, pure, Except.pure, Except.map, Layer.blanked, Frame.blanked,
      Part.blanked]
  · rw [get_blanked_of_ne v "additionalProperties" (by decide) (by decide)]
    refine bind_map fun values _ => ?_
    have hmap : ∀ members : Members, mapLayer (.mapping (members.blanked false)) hint =
        (mapLayer (.mapping members) hint).blanked := fun members =>
      congrArg (mapLayer · hint) (Value.blanked_mapping members).symm
    cases values with
    | scalar s => rw [Value.blanked_scalar]; exact congrArg Except.ok (hmap [])
    | sequence items =>
      rw [Value.blanked, Value.blankedIn_sequence]
      exact congrArg Except.ok (hmap [])
    | mapping members => rw [Value.blanked_mapping]; exact congrArg Except.ok (hmap members)

private theorem extended_blanked (v : Value) :
    extended v.blanked = (extended v).map (List.map Value.blanked) := by
  rw [extended, require_blanked_of_ne v "allOf" (by decide) (by decide), extended]
  refine bind_map fun all _ => ?_
  rw [Value.blanked, Value.elements_blankedIn]
  refine bind_map fun subs _ => filterM_map fun sub _ => ?_
  rw [isRemark_blanked]

private theorem extensionLayer_blanked (hP : Refers document P) (h : P v) (hint : String) :
    extensionLayer document.blankedDocument v.blanked hint =
      (extensionLayer document v hint).map Layer.blanked := by
  rw [extensionLayer, extended_blanked, extensionLayer]
  refine bind_map fun subs hsubs => ?_
  have hgathered : ∀ subs', extended v = .ok subs' →
      (gather document.blankedDocument (subs'.map Value.blanked) v.blanked >>= fun flat =>
        objectLayer flat.toObject hint) = (gather document subs' v >>= fun flat =>
          objectLayer flat.toObject hint).map Layer.blanked := by
    intro subs' hsubs'
    rw [gather_blanked hP (hP.toPartClosed.extended h hsubs')]
    refine bind_map fun flat _ => ?_
    rw [toObject_blanked, objectLayer_blanked]
  rcases subs with _ | ⟨only, _ | ⟨second, others⟩⟩
  · exact hgathered [] hsubs
  · rfl
  · exact hgathered _ hsubs

private theorem choiceLayer_blanked (v : Value) (hint : String) :
    choiceLayer v.blanked hint = (choiceLayer v hint).map Layer.blanked := by
  rw [choiceLayer, Value.blanked, Value.elements_blankedIn, choiceLayer]
  refine bind_map fun subs _ => ?_
  simp only [List.map_map, Function.comp_def, pure, Except.pure, Except.map, Layer.blanked,
    Frame.blanked, Part.blanked]

private theorem textValues?_blanked (v : Value) : textValues? v.blanked = textValues? v := by
  rw [textValues?, Value.blanked, Value.isTruthy_blankedIn, Value.elements_blankedIn, textValues?]
  split
  · rfl
  · cases v.elements with
    | error fault => rfl
    | ok values =>
      simp only [Except.map, bind, Except.bind]
      rw [List.mapM_map]
      congr 2
      funext value
      cases value <;> simp [Value.blanked]

private theorem stringType_blanked (v : Value) : stringType v.blanked = stringType v := by
  rw [stringType, Value.blanked, Value.asScalar_blankedIn, stringType]

private theorem format_blanked (format : Option Value) :
    (format.map (Value.blankedMember false (.text "format"))).getD (.text "") =
      (format.getD (.text "")).blanked := by
  cases format with
  | none => exact (Value.blanked_scalar (.text "")).symm
  | some f => exact Value.blankedMember_of_ne (by decide) (by decide) f

theorem typed_blanked (ms : Members) (t : Value) :
    Value.mapping (Members.set (ms.blanked false) (.text "type") t.blanked) =
      (Value.mapping (Members.set ms (.text "type") t)).blanked := by
  rw [set_blanked_of_ne ms "type" (by decide) (by decide), Value.blanked_mapping]

/-- A type that stands for an object or for nothing in particular. -/
theorem objectOrAny_blanked {p q : Prop} [Decidable p] [Decidable q] (hpq : p ↔ q) (ms : Members)
    (v : Value) (hint : String) :
    (if p ∨ Members.has (ms.blanked false) "properties" ∨
        Members.has (ms.blanked false) "additionalProperties" then objectLayer v.blanked hint
      else pure { frame := .primitive .any }) =
    Except.map Layer.blanked (if q ∨ Members.has ms "properties" ∨
        Members.has ms "additionalProperties" then objectLayer v hint
      else pure { frame := .primitive .any }) := by
  simp only [Members.has_blanked, objectLayer_blanked, hpq]
  split <;> rfl

private theorem plainLayer_blanked (v : Value) (hint : String) :
    plainLayer v.blanked hint = (plainLayer v hint).map Layer.blanked := by
  rw [plainLayer, Value.blanked, Value.members_blankedIn, ← Value.blanked,
    get_blanked_of_ne v "enum" (by decide) (by decide),
    get_blanked_of_ne v "type" (by decide) (by decide),
    get_blanked_of_ne v "items" (by decide) (by decide), plainLayer]
  refine bind_map fun ms _ => bind_map fun enumeration _ => ?_
  rw [textValues?_blanked]
  refine bind_eq_map fun values => ?_
  cases values with
  | some values => rfl
  | none =>
    refine bind_map fun type _ => ?_
    cases type with
    | scalar s =>
      rw [Value.blanked_scalar]
      split
      · cases ‹Value.scalar s = .sequence _›
      · rw [Value.get?_blanked]
        refine bind_map fun format _ => ?_
        rw [format_blanked, stringType_blanked]
        exact bind_eq_map fun _ => rfl
      · rfl
      · rfl
      · rfl
      · refine bind_map fun items _ => congrArg Except.ok ?_
        simp only [Layer.blanked, Frame.blanked, List.map_cons, List.map_nil, Part.blanked,
          Value.blanked, Value.orEmpty_blankedIn]
      · exact objectOrAny_blanked Iff.rfl ms v hint
    | sequence types =>
      rw [Value.blanked, Value.blankedIn_sequence]
      refine congrArg Except.ok ?_
      simp only [Layer.blanked, Frame.blanked, List.map_map, Function.comp_def, Part.blanked,
        typed_blanked]
    | mapping members =>
      rw [Value.blanked_mapping]
      exact objectOrAny_blanked (by simp) ms v hint

/-- A schema with blank descriptions has the layer of the schema, with blank descriptions. -/
theorem layer_blanked (hP : Refers document P) (h : P v) (hint : String) :
    layer document.blankedDocument v.blanked hint = (layer document v hint).map Layer.blanked := by
  rw [layer, isNullable_blanked, stripNullable_blanked, Value.blanked, Value.members_blankedIn,
    ← Value.blanked, layer]
  refine bind_map fun ms hms => bind_eq_map fun nullable => ?_
  obtain rfl := members_ok_iff.mp hms
  have hkey : ∀ key, key ≠ "description" → key ≠ "properties" →
      Members.get? (ms.blanked false) key = (Members.get? ms key).map Value.blanked :=
    get?_blanked_of_ne ms
  split
  · exact bind_map fun inner _ => rfl
  · rw [hkey "$ref" (by decide) (by decide), hkey "oneOf" (by decide) (by decide),
      hkey "anyOf" (by decide) (by decide), Members.has_blanked, plainLayer_blanked,
      extensionLayer_blanked hP h]
    cases Members.get? ms "$ref" with
    | some target =>
      have htarget : Value.mapping [(.text "$ref", target.blanked)] =
          (Value.mapping [(.text "$ref", target)]).blanked := by
        rw [Value.blanked_mapping, Members.blanked_cons,
          Value.blankedMember_of_ne (by decide) (by decide)]
        rfl
      simp only [Option.map_some, htarget]
      rfl
    | none =>
      simp only [Option.map_none]
      split
      · rfl
      · cases Members.get? ms "oneOf" with
        | some alternatives => exact choiceLayer_blanked alternatives hint
        | none =>
          cases Members.get? ms "anyOf" with
          | some alternatives => exact choiceLayer_blanked alternatives hint
          | none => rfl

end OpenApiClient.Schema

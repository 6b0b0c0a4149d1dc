import OpenApiClient.Proofs.AlikeFlattening

/-! # Layers of alike schemas

Alike schemas have layers of one kind with parts that are alike. The members of a choice have the
same forms, not only alike ones, and the properties of an object may stand in another order. -/
namespace OpenApiClient.Schema

open Relation

variable {document : Value} {ms ns : Members} {v w : Value} {subs others : List Value}
  {hint hint' : String} {a b : Layer} {f g : Flat} {p : Bool}

def Frame.isSingle : Frame → Bool
  | array | map | optional | synonym => true
  | _ => false

inductive LayersAlike : Layer → Layer → Prop
  | primitive (p : Primitive) : LayersAlike { frame := .primitive p } { frame := .primitive p }
  | enumeration (values : List String) :
      LayersAlike { frame := .enumeration values } { frame := .enumeration values }
  | single {frame : Frame} {p q : Part} (hframe : frame.isSingle) (h : Alike p.schema q.schema) :
      LayersAlike { frame, parts := [p] } { frame, parts := [q] }
  | union {subs others : List Value} {hint hint' : String} (h : List.Forall₂ Alike subs others) :
      LayersAlike (unionLayer .union subs hint) (unionLayer .union others hint')
  | choice {subs others : List Value} {hint hint' : String} (h : SameForms subs others) :
      LayersAlike (unionLayer .choice subs hint) (unionLayer .choice others hint')
  | object {required : List Scalar} {ps qs : Members} {hint hint' : String}
      (h : FieldsAlike ps qs) :
      LayersAlike (fieldsLayer required ps hint) (fieldsLayer required qs hint')

/-- Whether the parts of a layer are mappings, once values that stand for nothing are replaced. -/
def HasMappings (a : Layer) : Prop := ∀ p ∈ a.parts, ∃ ms, p.schema.orEmpty = .mapping ms

theorem asScalar_of_form (h : form p v = form p w) : v.asScalar = w.asScalar := by
  cases v with
  | scalar s => rw [eq_of_form_scalar h]
  | sequence items =>
    cases w with
    | scalar t => cases eq_of_form_scalar h.symm
    | sequence items' => rfl
    | mapping ns => rfl
  | mapping ms =>
    cases w with
    | scalar t => cases eq_of_form_scalar h.symm
    | sequence items' => rfl
    | mapping ns => rfl

/-- What is the same for values of one form is the same for lists of such values. -/
theorem SameForms.mapM_congr {m : Type → Type} [Monad m] [LawfulMonad m] {β : Type}
    {f : Value → m β}
    (hf : ∀ v w, form false v = form false w → f v = f w) (h : SameForms subs others) :
    subs.mapM f = others.mapM f := by
  induction h with
  | nil => rfl
  | cons hvw _ ih => rw [List.mapM_cons, List.mapM_cons, hf _ _ hvw, ih]

theorem SameForms.mapM_asScalar (h : SameForms subs others) :
    subs.mapM Value.asScalar = others.mapM Value.asScalar :=
  h.mapM_congr fun _ _ => asScalar_of_form

structure ObjectsAlike (ms ns : Members) : Prop where
  properties : (∃ ps qs, Members.get? ms "properties" = some (.mapping ps) ∧
      Members.get? ns "properties" = some (.mapping qs) ∧ FieldsAlike ps qs) ∨
    (∀ ps, Members.get? ms "properties" ≠ some (.mapping ps)) ∧
      ∀ qs, Members.get? ns "properties" ≠ some (.mapping qs)
  required : requiredNames (.mapping ms) = requiredNames (.mapping ns)
  values : Alike (mapValues ms) (mapValues ns)

theorem objectLayer_alike (h : ObjectsAlike ms ns) (ha : objectLayer (.mapping ms) hint = .ok a)
    (hb : objectLayer (.mapping ns) hint' = .ok b) : LayersAlike a b := by
  obtain ⟨_, hms, ha⟩ := objectLayer_ok ha
  obtain ⟨_, hns, hb⟩ := objectLayer_ok hb
  obtain rfl := Value.mapping.inj hms
  obtain rfl := Value.mapping.inj hns
  rcases ha with ⟨names, ps, hnames, hps, hne, rfl⟩ | ⟨hempty, rfl⟩
  · rcases h.properties with ⟨ps', qs', hps', hqs', hfields⟩ | ⟨hnot, -⟩
    · obtain rfl := Value.mapping.inj (Option.some.inj (hps'.symm.trans hps))
      rcases hb with ⟨names', qs, hnames', hqs, -, rfl⟩ | ⟨hempty', -⟩
      · obtain rfl := Value.mapping.inj (Option.some.inj (hqs'.symm.trans hqs))
        obtain rfl := Except.ok.inj (hnames.symm.trans (h.required.trans hnames'))
        exact .object hfields
      · rw [hqs', Option.getD_some, Value.orEmpty_mapping] at hempty'
        exact absurd (hfields.eq_nil_iff.mpr (Value.mapping.inj hempty')) hne
    · exact absurd hps (hnot ps)
  · rcases hb with ⟨names', qs, hnames', hqs, hne, rfl⟩ | ⟨-, rfl⟩
    · rcases h.properties with ⟨ps', qs', hps', hqs', hfields⟩ | ⟨-, hnot⟩
      · obtain rfl := Value.mapping.inj (Option.some.inj (hqs'.symm.trans hqs))
        rw [hps', Option.getD_some, Value.orEmpty_mapping] at hempty
        exact absurd (hfields.eq_nil_iff.mp (Value.mapping.inj hempty)) hne
      · exact absurd hqs (hnot qs)
    · exact .single rfl h.values

theorem requiredNames_mapping (ms : Members) :
    requiredNames (.mapping ms) =
      ((Members.get? ms "required").getD .null).orNone.elements >>= fun names =>
        names.mapM Value.asScalar := rfl

theorem requiredNames_sequence (items : List Value)
    (h : Members.get? ms "required" = some (.sequence items)) :
    requiredNames (.mapping ms) = items.mapM Value.asScalar := by
  rw [requiredNames_mapping, h]
  cases items <;> rfl

private theorem objectsAlike_of_members (hms : (Value.mapping ms).IsJson)
    (hns : (Value.mapping ns).IsJson)
    (hregular : Regular ms) (h : AlikeMembers ms ns) : ObjectsAlike ms ns where
  properties := by
    rcases h.cases "properties" (by decide) with ⟨hnone, hnone'⟩ | ⟨v, w, hv, hw, hform⟩
    · exact .inr ⟨by simp [hnone], by simp [hnone']⟩
    · by_cases hmapping : ∃ ps, v = .mapping ps
      · obtain ⟨ps, rfl⟩ := hmapping
        have hps := isJson_of_get? hms hv
        obtain ⟨qs, rfl⟩ := mapping_of_form hps hform
        exact .inl ⟨ps, qs, hv, hw, fieldsAlike_of_form hps (isJson_of_get? hns hw) hform⟩
      · refine .inr ⟨fun ps hps => hmapping ⟨ps, Option.some.inj (hv.symm.trans hps)⟩,
          fun qs hqs => ?_⟩
        obtain rfl := Option.some.inj (hw.symm.trans hqs)
        obtain ⟨ps, hps⟩ := mapping_of_form (isJson_of_get? hns hw) hform.symm
        exact hmapping ⟨ps, hps⟩
  required := by
    rcases h.cases "required" (by decide) with ⟨hnone, hnone'⟩ | ⟨v, w, hv, -, -⟩
    · rw [requiredNames_mapping, requiredNames_mapping, hnone, hnone']
    · obtain ⟨items, rfl⟩ := Value.isSequence_iff.mp (hregular.required hv)
      obtain ⟨items', hitems', hall⟩ := h.get?_sequence hms "required" (by decide) hv
      rw [requiredNames_sequence _ hv, requiredNames_sequence _ hitems', hall.mapM_asScalar]
  values := by
    rw [mapValues, mapValues]
    rcases h.cases "additionalProperties" (by decide) with ⟨hnone, hnone'⟩ | ⟨v, w, hv, hw, hform⟩
    · rw [hnone, hnone']
      exact .refl _
    · rw [hv, hw]
      have hform : form false v = form false w := hform
      by_cases hmapping : ∃ values, v = .mapping values
      · obtain ⟨values, rfl⟩ := hmapping
        obtain ⟨values', rfl⟩ := mapping_of_form (isJson_of_get? hms hv) hform
        exact .same hform
      · have hmapping' : ¬ ∃ values, w = .mapping values := by
          rintro ⟨values, rfl⟩
          exact hmapping (mapping_of_form (isJson_of_get? hns hw) hform.symm)
        cases v <;> cases w <;> simp_all [Alike.refl]

private theorem objectsAlike_of_flats (h : FlatsAlike f g) :
    ∃ ms ns, f.toObject = .mapping ms ∧ g.toObject = .mapping ns ∧ ObjectsAlike ms ns := by
  refine ⟨_, _, rfl, rfl, ?_, ?_, ?_⟩
  · exact .inl ⟨f.properties, g.properties, by simp [Members.get?_cons],
      by simp [Members.get?_cons], h.properties⟩
  · rw [requiredNames_sequence f.required (by simp [Members.get?_cons]),
      requiredNames_sequence g.required (by simp [Members.get?_cons]), h.required.mapM_asScalar]
  · have hempty : ∀ f : Flat, mapValues [(.text "type", .text "object"),
        (.text "properties", .mapping f.properties), (.text "required", .sequence f.required)] =
        .empty := by
      intro f
      simp [mapValues, Members.get?_cons]
    rw [hempty, hempty]
    exact .refl _

private theorem areRemarks_of_sameForms (h : SameForms subs others) :
    areRemarks subs = areRemarks others := by
  induction h with
  | nil => rfl
  | cons hvw _ ih => rw [areRemarks, areRemarks, asScalar_of_form hvw, ih]

def isRemarkKey : Scalar → Bool
  | .text key => remarkKeys.contains key
  | _ => false

private theorem areRemarks_keys (h : ∀ m ∈ ms, ∃ key, m.1 = .text key) :
    areRemarks (ms.map fun m => .scalar m.1) = .ok (ms.all fun m => isRemarkKey m.1) := by
  induction ms with
  | nil => rfl
  | cons m rest ih =>
    obtain ⟨⟨key, hkey⟩, hrest⟩ := List.forall_mem_cons.mp h
    rw [List.map_cons, areRemarks, List.all_cons, hkey, ih hrest]
    simp only [Value.asScalar, bind, Except.bind, isRemarkKey]
    split
    · rename_i hmem
      rw [hmem, Bool.true_and]
    · rename_i hmem
      rw [Bool.eq_false_iff.mpr hmem, Bool.false_and]
      rfl

private theorem isRemark_of_form (hv : v.IsJson) (hw : w.IsJson) (h : form false v = form false w) :
    isRemark v = isRemark w := by
  cases v with
  | scalar s => rw [eq_of_form_scalar h]
  | sequence items =>
    obtain ⟨items', rfl, hall⟩ := sequence_of_form hv h
    exact areRemarks_of_sameForms hall
  | mapping ms =>
    obtain ⟨ns, rfl⟩ := mapping_of_form hv h
    have hkeys : ∀ {ms ns : Members}, (Value.mapping ms).IsJson → AlikeMembers ms ns →
        (∀ m ∈ ns, isRemarkKey m.1) → ∀ m ∈ ms, isRemarkKey m.1 := by
      intro ms ns hms halike hns m hm
      obtain ⟨key, hkey⟩ := (Value.isJson_mapping_iff.mp hms).1 m hm
      rw [hkey]
      by_cases hdocuments : key ∈ documentationKeys
      · have hsubset : ∀ key ∈ documentationKeys, isRemarkKey (.text key) := by decide
        exact hsubset key hdocuments
      · rcases halike.cases key hdocuments with ⟨hnone, -⟩ | ⟨_, w, -, hw, -⟩
        · exact absurd hkey (Members.get?_eq_none_iff.mp hnone m hm)
        · exact hns _ (Value.mem_of_get?_eq_some hw)
    have halike := alikeMembers_of_form hv h
    rw [isRemark, isRemark, Value.elements, Value.elements]
    simp only [bind, Except.bind]
    rw [areRemarks_keys (Value.isJson_mapping_iff.mp hv).1,
      areRemarks_keys (Value.isJson_mapping_iff.mp hw).1, Except.ok.injEq, Bool.eq_iff_iff,
      List.all_eq_true, List.all_eq_true]
    exact ⟨hkeys hw halike.symm, hkeys hv halike⟩

theorem SameForms.filter_isRemark (hsubs : ∀ sub ∈ subs, sub.IsJson)
    (hothers : ∀ sub ∈ others, sub.IsJson) (h : SameForms subs others) :
    SameForms (subs.filter fun sub => isRemark sub = .ok false)
      (others.filter fun sub => isRemark sub = .ok false) := by
  induction h with
  | nil => exact .nil
  | @cons v w vs ws hvw _ ih =>
    obtain ⟨hv, hvs⟩ := List.forall_mem_cons.mp hsubs
    obtain ⟨hw, hws⟩ := List.forall_mem_cons.mp hothers
    rw [List.filter_cons, List.filter_cons, isRemark_of_form hv hw hvw]
    split
    · exact .cons hvw (ih hvs hws)
    · exact ih hvs hws

private theorem not_mapping_of_isRemark {s : Scalar} (h : isRemark (.scalar s) = .ok false) :
    ∀ ms, (Value.scalar s).orEmpty ≠ .mapping ms := by
  have htruthy : (Value.scalar s).isTruthy = true := by
    cases s with
    | text t =>
      rw [Value.isTruthy, Scalar.isTruthy, bne_iff_ne]
      rintro rfl
      cases h
    | null => cases h
    | bool b => cases h
    | int n => cases h
    | decimal d => cases h
  simp [Value.orEmpty, htruthy]

/-- The schemas that alike schemas extend have the same forms, or are scalars. -/
theorem extended_alike (hms : (Value.mapping ms).IsJson) (hns : (Value.mapping ns).IsJson)
    (h : AlikeMembers ms ns) (hsubs : extended (.mapping ms) = .ok subs)
    (hothers : extended (.mapping ns) = .ok others) :
    SameForms subs others ∨ (∀ sub ∈ subs, ∃ s, sub = .scalar s ∧ isRemark sub = .ok false) ∧
      ∀ sub ∈ others, ∃ s, sub = .scalar s ∧ isRemark sub = .ok false := by
  obtain ⟨all, elements, hall, helements, -, rfl⟩ := extended_ok hsubs
  obtain ⟨all', elements', hall', helements', -, rfl⟩ := extended_ok hothers
  rcases h.cases "allOf" (by decide) with ⟨hnone, -⟩ | ⟨_, _, hv, hw, hform⟩
  · simp [hnone] at hall
  · obtain rfl := Option.some.inj (hv.symm.trans hall)
    obtain rfl := Option.some.inj (hw.symm.trans hall')
    have hallJson := isJson_of_get? hms hall
    have hallJson' := isJson_of_get? hns hall'
    rcases elements_alike hallJson hform helements helements' with hforms | ⟨hscalars, hscalars'⟩
    · exact .inl (hforms.filter_isRemark
        (Value.isJson_sequence_iff.mp (isJson_elements hallJson helements))
        (Value.isJson_sequence_iff.mp (isJson_elements hallJson' helements')))
    · refine .inr ⟨fun sub hsub => ?_, fun sub hsub => ?_⟩
      · obtain ⟨hmem, hremark⟩ := List.mem_filter.mp hsub
        obtain ⟨s, rfl⟩ := hscalars sub hmem
        exact ⟨s, rfl, of_decide_eq_true hremark⟩
      · obtain ⟨hmem, hremark⟩ := List.mem_filter.mp hsub
        obtain ⟨s, rfl⟩ := hscalars' sub hmem
        exact ⟨s, rfl, of_decide_eq_true hremark⟩

/-- A schema that extends scalars has one of them for its only part, or extends none at all. -/
theorem extended_scalars (hsubs : extended v = .ok subs)
    (hscalars : ∀ sub ∈ subs, ∃ s, sub = .scalar s ∧ isRemark sub = .ok false)
    (ha : extensionLayer document v hint = .ok a) :
    subs = [] ∨ ∃ p, a.parts = [p] ∧ ∀ ms, p.schema.orEmpty ≠ .mapping ms := by
  simp only [extensionLayer, hsubs, bind, Except.bind] at ha
  split at ha
  · rename_i only
    obtain ⟨s, rfl, hremark⟩ := hscalars only List.mem_cons_self
    cases ha
    exact .inr ⟨_, rfl, not_mapping_of_isRemark hremark⟩
  · obtain ⟨flat, hflat, -⟩ := except_bind_ok_iff.mp ha
    obtain ⟨gathered, hgathered, -⟩ := except_bind_ok_iff.mp hflat
    refine .inl (eq_nil_of_foldlM (fun s => (flatten_scalar document s).2) (fun sub hsub => ?_)
      hgathered)
    obtain ⟨s, rfl, -⟩ := hscalars sub hsub
    exact ⟨s, rfl⟩

theorem extended_eq_nil (hsubs : extended v = .ok subs)
    (hscalars : ∀ sub ∈ subs, ∃ s, sub = .scalar s ∧ isRemark sub = .ok false)
    (ha : extensionLayer document v hint = .ok a) (hparts : HasMappings a) : subs = [] := by
  rcases extended_scalars hsubs hscalars ha with hnil | ⟨p, hp, hnot⟩
  · exact hnil
  · obtain ⟨ms, hms⟩ := hparts p (hp ▸ List.mem_cons_self)
    exact absurd hms (hnot ms)

theorem Tame.extended (hdocument : document.IsJson) (h : Tame document v)
    (hsubs : Schema.extended v = .ok subs) : ∀ sub ∈ subs, Tame document sub := by
  obtain ⟨_, hrequire, -⟩ := except_bind_ok_iff.mp hsubs
  obtain ⟨ms, rfl, -⟩ := require_ok_iff.mp hrequire
  obtain ⟨all, elements, hall, helements, -, rfl⟩ := extended_ok hsubs
  exact fun sub hsub => h.follows hdocument
    (.member (require_ok_iff.mpr ⟨ms, rfl, hall⟩) helements (List.mem_of_mem_filter hsub))

theorem extensionLayer_of_forms (hdocument : document.IsJson) (hms : Tame document (.mapping ms))
    (hns : Tame document (.mapping ns)) (h : AlikeMembers ms ns)
    (hsubs : extended (.mapping ms) = .ok subs) (hothers : extended (.mapping ns) = .ok others)
    (hforms : SameForms subs others) (ha : extensionLayer document (.mapping ms) hint = .ok a)
    (hb : extensionLayer document (.mapping ns) hint' = .ok b) : LayersAlike a b := by
  have hmany : ∀ {flat flat'}, gather document subs (.mapping ms) = .ok flat →
      gather document others (.mapping ns) = .ok flat' →
      objectLayer flat.toObject hint = .ok a → objectLayer flat'.toObject hint' = .ok b →
      LayersAlike a b := by
    intro flat flat' hflat hflat' ha hb
    have hflats := gather_alike hdocument hms hns (.members h) hforms
      (hms.extended hdocument hsubs) (hns.extended hdocument hothers) hflat hflat'
    obtain ⟨ms', ns', hms', hns', hobjects⟩ := objectsAlike_of_flats hflats
    exact objectLayer_alike hobjects (hms' ▸ ha) (hns' ▸ hb)
  simp only [extensionLayer, hsubs, hothers, bind, Except.bind] at ha hb
  cases hforms with
  | nil =>
    obtain ⟨flat, hflat, ha⟩ := except_bind_ok_iff.mp ha
    obtain ⟨flat', hflat', hb⟩ := except_bind_ok_iff.mp hb
    exact hmany hflat hflat' ha hb
  | cons hfirst hrest =>
    cases hrest with
    | nil =>
      cases ha
      cases hb
      exact .single rfl (.same hfirst)
    | cons hsecond hrest =>
      obtain ⟨flat, hflat, ha⟩ := except_bind_ok_iff.mp ha
      obtain ⟨flat', hflat', hb⟩ := except_bind_ok_iff.mp hb
      exact hmany hflat hflat' ha hb

private theorem extensionLayer_alike (hdocument : document.IsJson) (hms : Tame document (.mapping ms))
    (hns : Tame document (.mapping ns)) (h : AlikeMembers ms ns)
    (ha : extensionLayer document (.mapping ms) hint = .ok a)
    (hb : extensionLayer document (.mapping ns) hint' = .ok b) (hparts : HasMappings a)
    (hparts' : HasMappings b) : LayersAlike a b := by
  obtain ⟨subs, hsubs, -⟩ := except_bind_ok_iff.mp ha
  obtain ⟨others, hothers, -⟩ := except_bind_ok_iff.mp hb
  refine extensionLayer_of_forms hdocument hms hns h hsubs hothers ?_ ha hb
  rcases extended_alike hms.json hns.json h hsubs hothers with hforms | ⟨hscalars, hscalars'⟩
  · exact hforms
  · rw [extended_eq_nil hsubs hscalars ha hparts, extended_eq_nil hothers hscalars' hb hparts']
    exact .nil

/-- The keys of a mapping in JSON that are mappings when they stand for nothing: at most one. -/
theorem keys_of_mappings (hms : (Value.mapping ms).IsJson) {keys : List Value}
    (hkeys : (Value.mapping ms).elements = .ok keys)
    (hparts : ∀ key ∈ keys, ∃ ns, key.orEmpty = .mapping ns) :
    keys = if Members.has ms "" then [.text ""] else [] := by
  obtain ⟨htext, hnodup, -⟩ := Value.isJson_mapping_iff.mp hms
  have hempty : ∀ m ∈ ms, m.1 = .text "" := by
    intro m hm
    obtain ⟨key, hkey⟩ := htext m hm
    cases hkeys
    obtain ⟨ns, hns⟩ := hparts _ (List.mem_map_of_mem hm)
    rw [hkey] at hns ⊢
    by_cases hne : key = ""
    · rw [hne]
    · simp [Value.orEmpty, Value.isTruthy, Scalar.isTruthy, hne] at hns
  cases hkeys
  cases ms with
  | nil => rfl
  | cons m rest =>
    have hm := hempty m List.mem_cons_self
    cases rest with
    | nil =>
      rw [Members.has_eq_isSome, Members.get?_isSome_iff.mpr ⟨m, List.mem_cons_self, hm⟩]
      simp [hm]
    | cons n rest =>
      have hn := hempty n (by simp)
      simp [hm, hn] at hnodup

private theorem choiceLayer_alike (hv : v.IsJson) (hw : w.IsJson) (h : form false v = form false w)
    (ha : choiceLayer v hint = .ok a) (hb : choiceLayer w hint' = .ok b) (hparts : HasMappings a)
    (hparts' : HasMappings b) : LayersAlike a b := by
  obtain ⟨elements, helements, ha⟩ := except_bind_ok_iff.mp ha
  obtain ⟨elements', helements', hb⟩ := except_bind_ok_iff.mp hb
  cases ha
  cases hb
  refine .choice ?_
  have hmappings : ∀ v ∈ elements, ∃ ms, v.orEmpty = .mapping ms :=
    fun v hv => hparts _ (List.mem_map_of_mem hv)
  have hmappings' : ∀ v ∈ elements', ∃ ms, v.orEmpty = .mapping ms :=
    fun v hv => hparts' _ (List.mem_map_of_mem hv)
  rcases elements_of_form hv h helements helements' with hforms | ⟨ms, ns, rfl, rfl⟩
  · exact hforms
  · rw [keys_of_mappings hv helements hmappings, keys_of_mappings hw helements' hmappings',
      (alikeMembers_of_form hv h).has "" (by decide)]
    exact List.forall₂_same.mpr fun _ _ => rfl

private theorem AlikeMembers.setType (h : AlikeMembers ms ns) (hform : form false v = form false w) :
    AlikeMembers (Members.set ms (.text "type") v) (Members.set ns (.text "type") w) := by
  intro key hkey
  rw [Members.get?_set, Members.get?_set]
  by_cases htype : key = "type"
  · rw [if_pos htype, if_pos htype, htype]
    exact congrArg some hform
  · rw [if_neg htype, if_neg htype]
    exact h key hkey

private theorem textValues_alike (hms : (Value.mapping ms).IsJson) (hregular : Regular ms)
    (h : AlikeMembers ms ns) :
    textValues? ((Members.get? ms "enum").getD .null) =
      textValues? ((Members.get? ns "enum").getD .null) := by
  rcases h.cases "enum" (by decide) with ⟨hnone, hnone'⟩ | ⟨v, w, hv, -, -⟩
  · rw [hnone, hnone']
  · obtain ⟨items, rfl⟩ := Value.isSequence_iff.mp (hregular.enum hv)
    obtain ⟨items', hitems', hall⟩ := h.get?_sequence hms "enum" (by decide) hv
    rw [hv, hitems', Option.getD_some, Option.getD_some]
    cases hall with
    | nil => rfl
    | cons hfirst hrest =>
      refine congrArg Except.ok (SameForms.mapM_congr (fun v w hvw => ?_) (.cons hfirst hrest))
      have hscalar := asScalar_of_form hvw
      cases v <;> cases w <;> simp_all [Value.asScalar]

private theorem stringType_alike (h : AlikeMembers ms ns) :
    stringType ((Members.get? ms "format").getD (.text "")) =
      stringType ((Members.get? ns "format").getD (.text "")) := by
  rcases h.cases "format" (by decide) with ⟨hnone, hnone'⟩ | ⟨v, w, hv, hw, hform⟩
  · rw [hnone, hnone']
  · rw [hv, hw, Option.getD_some, Option.getD_some, stringType, stringType, asScalar_of_form hform]

private theorem AlikeMembers.form_getD (h : AlikeMembers ms ns) (key : String)
    (hkey : key ∉ documentationKeys) :
    form (holdsProperties false (.text key)) ((Members.get? ms key).getD .null) =
      form (holdsProperties false (.text key)) ((Members.get? ns key).getD .null) := by
  rcases h.cases key hkey with ⟨hnone, hnone'⟩ | ⟨v, w, hv, hw, hform⟩
  · rw [hnone, hnone']
  · rw [hv, hw]
    exact hform

private theorem isJson_getD (hms : (Value.mapping ms).IsJson) (key : String) :
    ((Members.get? ms key).getD .null).IsJson := by
  cases hget : Members.get? ms key with
  | none => exact Value.isJson_scalar .null
  | some v => exact isJson_of_get? hms hget

private theorem objectOrAny_alike (hms : (Value.mapping ms).IsJson) (hns : (Value.mapping ns).IsJson)
    (hregular : Regular ms) (h : AlikeMembers ms ns) {t u : Value}
    (htu : t = .text "object" ↔ u = .text "object")
    (ha : (if t = .text "object" ∨ Members.has ms "properties" ∨
        Members.has ms "additionalProperties" then objectLayer (.mapping ms) hint
      else pure { frame := .primitive .any }) = .ok a)
    (hb : (if u = .text "object" ∨ Members.has ns "properties" ∨
        Members.has ns "additionalProperties" then objectLayer (.mapping ns) hint'
      else pure { frame := .primitive .any }) = .ok b) : LayersAlike a b := by
  rw [← h.has "properties" (by decide), ← h.has "additionalProperties" (by decide)] at hb
  simp only [← htu] at hb
  split at ha
  · rename_i hobject
    rw [if_pos hobject] at hb
    exact objectLayer_alike (objectsAlike_of_members hms hns hregular h) ha hb
  · rename_i hobject
    rw [if_neg hobject] at hb
    cases ha
    cases hb
    exact .primitive _

private theorem typesLayer_alike (h : AlikeMembers ms ns) (hall : SameForms subs others) :
    LayersAlike
      (unionLayer .union (subs.map fun t => .mapping (Members.set ms (.text "type") t)) hint)
      (unionLayer .union (others.map fun t => .mapping (Members.set ns (.text "type") t))
        hint') := by
  refine .union ?_
  rw [List.forall₂_map_left_iff, List.forall₂_map_right_iff]
  exact hall.imp fun _ _ hform => .members (h.setType hform)

private theorem plainLayer_alike (hms : (Value.mapping ms).IsJson) (hns : (Value.mapping ns).IsJson)
    (hregular : Regular ms) (h : AlikeMembers ms ns)
    (ha : plainLayer (.mapping ms) hint = .ok a) (hb : plainLayer (.mapping ns) hint' = .ok b) :
    LayersAlike a b := by
  simp only [plainLayer, except_bind_ok_iff, members_ok_iff, Value.mapping.injEq, get_mapping,
    Except.ok.injEq] at ha hb
  obtain ⟨_, rfl, _, rfl, values, hvalues, ha⟩ := ha
  obtain ⟨_, rfl, _, rfl, values', hvalues', hb⟩ := hb
  rw [← textValues_alike hms hregular h, hvalues, Except.ok.injEq] at hvalues'
  subst hvalues'
  cases values with
  | some values =>
    cases ha
    cases hb
    exact .enumeration values
  | none =>
    simp only [except_bind_ok_iff, Except.ok.injEq] at ha hb
    obtain ⟨_, rfl, ha⟩ := ha
    obtain ⟨_, rfl, hb⟩ := hb
    have htype : form false ((Members.get? ms "type").getD .null) =
        form false ((Members.get? ns "type").getD .null) := h.form_getD "type" (by decide)
    have htypeJson := isJson_getD hms "type"
    generalize (Members.get? ms "type").getD .null = t at ha htype htypeJson
    generalize (Members.get? ns "type").getD .null = u at hb htype
    -- The types have one form, so they are equal scalars, or lists or mappings both.
    cases t with
    | sequence types =>
      obtain ⟨types', rfl, hall⟩ := sequence_of_form htypeJson htype
      cases ha
      cases hb
      have hunion : LayersAlike (unionLayer .union _ hint) (unionLayer .union _ hint') :=
        typesLayer_alike h hall
      rwa [unionLayer, unionLayer, List.map_map, List.map_map] at hunion
    | mapping members =>
      obtain ⟨members', rfl⟩ := mapping_of_form htypeJson htype
      exact objectOrAny_alike hms hns hregular h (by simp) ha hb
    | scalar s =>
      obtain rfl := eq_of_form_scalar htype
      split at ha
      · rename_i hsequence
        cases hsequence
      · rename_i hstring
        obtain rfl := Value.scalar.inj hstring
        simp only [Value.get?_mapping, except_bind_ok_iff, except_pure_ok_iff, Except.ok.injEq,
          exists_eq_left'] at ha hb
        obtain ⟨p, hp, rfl⟩ := ha
        obtain ⟨q, hq, rfl⟩ := hb
        rw [← stringType_alike h, hp] at hq
        obtain rfl := Except.ok.inj hq
        exact .primitive p
      · rename_i hinteger
        obtain rfl := Value.scalar.inj hinteger
        cases ha
        cases hb
        exact .primitive _
      · rename_i hnumber
        obtain rfl := Value.scalar.inj hnumber
        cases ha
        cases hb
        exact .primitive _
      · rename_i hboolean
        obtain rfl := Value.scalar.inj hboolean
        cases ha
        cases hb
        exact .primitive _
      · rename_i harray
        obtain rfl := Value.scalar.inj harray
        simp only [except_bind_ok_iff, except_pure_ok_iff, Except.ok.injEq, exists_eq_left']
          at ha hb
        subst ha hb
        have hitems := form_orEmpty (isJson_getD hms "items") (h.form_getD "items" (by decide))
        exact .single rfl (.same hitems)
      · rename_i hstring hinteger hnumber hboolean harray
        split at hb
        · rename_i hsequence
          cases hsequence
        · rename_i hname
          exact absurd hname hstring
        · rename_i hname
          exact absurd hname hinteger
        · rename_i hname
          exact absurd hname hnumber
        · rename_i hname
          exact absurd hname hboolean
        · rename_i hname
          exact absurd hname harray
        · exact objectOrAny_alike hms hns hregular h Iff.rfl ha hb

/-- Alike schemas have alike layers, unless both extend others or choose. -/
theorem layer_cases (hv : Tame document v) (hw : Tame document w) (h : Alike v w)
    (ha : layer document v hint = .ok a) (hb : layer document w hint' = .ok b) :
    LayersAlike a b ∨
      (∃ ms ns, v = .mapping ms ∧ w = .mapping ns ∧ AlikeMembers ms ns ∧
        extensionLayer document (.mapping ms) hint = .ok a ∧
        extensionLayer document (.mapping ns) hint' = .ok b) ∨
      ∃ x y, x.IsJson ∧ y.IsJson ∧ form false x = form false y ∧ choiceLayer x hint = .ok a ∧
        choiceLayer y hint' = .ok b := by
  simp only [layer, except_bind_ok_iff, members_ok_iff] at ha hb
  obtain ⟨ms, rfl, nullable, hnull, ha⟩ := ha
  obtain ⟨ns, rfl, nullable', hnull', hb⟩ := hb
  obtain ⟨_, hmembers, h⟩ := h.mapping hv.json
  obtain rfl := Value.mapping.inj hmembers
  rw [← isNullable_alike hv.json hv.self h, hnull, Except.ok.injEq] at hnull'
  subst hnull'
  cases nullable with
  | true =>
    simp only [if_true, except_bind_ok_iff, except_pure_ok_iff] at ha hb
    obtain ⟨inner, hinner, rfl⟩ := ha
    obtain ⟨inner', hinner', rfl⟩ := hb
    obtain ⟨stripped, rfl, hstripped⟩ := stripNullable_ok hinner
    obtain ⟨stripped', rfl, hstripped'⟩ := stripNullable_ok hinner'
    exact .inl (.single rfl
      (.members (stripNullable_alike hv.json hv.self h hstripped hstripped')))
  | false =>
    simp only [Bool.false_eq_true, if_false] at ha hb
    rcases h.cases "$ref" (by decide) with ⟨hnone, hnone'⟩ | ⟨target, target', hget, hget', hform⟩
    · rw [hnone] at ha
      rw [hnone'] at hb
      dsimp only at ha hb
      rw [← h.has "allOf" (by decide)] at hb
      split at ha
      · rename_i hall
        rw [if_pos hall] at hb
        exact .inr (.inl ⟨ms, ns, rfl, rfl, h, ha, hb⟩)
      · rename_i hall
        rw [if_neg hall] at hb
        rcases h.cases "oneOf" (by decide) with ⟨hone, hone'⟩ | ⟨x, y, hone, hone', hform⟩
        · rcases h.cases "anyOf" (by decide) with ⟨hany, hany'⟩ | ⟨x, y, hany, hany', hform⟩
          · rw [hone, hany] at ha
            rw [hone', hany'] at hb
            exact .inl (plainLayer_alike hv.json hw.json hv.self h ha hb)
          · rw [hone, hany] at ha
            rw [hone', hany'] at hb
            exact .inr (.inr ⟨x, y, isJson_of_get? hv.json hany, isJson_of_get? hw.json hany',
              hform, ha, hb⟩)
        · rw [hone] at ha
          rw [hone'] at hb
          exact .inr (.inr ⟨x, y, isJson_of_get? hv.json hone, isJson_of_get? hw.json hone', hform,
            ha, hb⟩)
    · rw [hget] at ha
      rw [hget'] at hb
      cases ha
      cases hb
      refine .inl (.single rfl (.members fun key hkey => ?_))
      rw [Members.get?_cons, Members.get?_cons, Members.get?_nil]
      split
      · rename_i hkey'
        rw [← hkey']
        exact congrArg some hform
      · rfl

/-- Alike schemas have alike layers. -/
theorem layer_alike (hdocument : document.IsJson) (hv : Tame document v) (hw : Tame document w)
    (h : Alike v w) (ha : layer document v hint = .ok a) (hb : layer document w hint' = .ok b)
    (hparts : HasMappings a) (hparts' : HasMappings b) : LayersAlike a b := by
  rcases layer_cases hv hw h ha hb with halike | ⟨ms, ns, rfl, rfl, hmembers, ha, hb⟩ |
    ⟨x, y, hx, hy, hform, ha, hb⟩
  · exact halike
  · exact extensionLayer_alike hdocument hv hw hmembers ha hb hparts hparts'
  · exact choiceLayer_alike hx hy hform ha hb hparts hparts'

/-- Whether the parts of a layer that are mappings are alike to parts of another one. -/
def Covers (b a : Layer) : Prop :=
  ∀ p ∈ a.parts, ∀ ms, p.schema.orEmpty = .mapping ms → ∃ q ∈ b.parts, Alike p.schema q.schema

theorem LayersAlike.covers (h : LayersAlike a b) : Covers b a := by
  have hunion : ∀ {frame frame' : Frame} {subs others : List Value} {hint hint' : String},
      List.Forall₂ Alike subs others →
        Covers (unionLayer frame others hint) (unionLayer frame' subs hint') := by
    intro frame frame' subs others hint hint' hall p hp _ _
    obtain ⟨sub, hsub, rfl⟩ := List.mem_map.mp hp
    obtain ⟨other, hother, halike⟩ := (exists_of_forall₂ hall).1 sub hsub
    exact ⟨_, List.mem_map_of_mem hother, halike⟩
  cases h with
  | primitive p => simp [Covers]
  | enumeration values => simp [Covers]
  | single hframe h =>
    intro p hp _ _
    obtain rfl := List.mem_singleton.mp hp
    exact ⟨_, List.mem_cons_self, h⟩
  | union h => exact hunion h
  | choice h => exact hunion (h.imp fun _ _ hform => .same hform)
  | object h =>
    intro p hp _ _
    obtain ⟨m, hm, rfl⟩ := List.mem_map.mp hp
    obtain ⟨n, hn, -, hform⟩ := h.mem hm
    exact ⟨_, List.mem_map_of_mem hn, .same hform⟩

private theorem extensionLayer_covers (hdocument : document.IsJson) (hms : Tame document (.mapping ms))
    (hns : Tame document (.mapping ns)) (h : AlikeMembers ms ns)
    (ha : extensionLayer document (.mapping ms) hint = .ok a)
    (hb : extensionLayer document (.mapping ns) hint' = .ok b) (hparts : HasMappings b) :
    Covers b a := by
  obtain ⟨subs, hsubs, -⟩ := except_bind_ok_iff.mp ha
  obtain ⟨others, hothers, -⟩ := except_bind_ok_iff.mp hb
  have hforms : SameForms subs others → Covers b a := fun hforms =>
    (extensionLayer_of_forms hdocument hms hns h hsubs hothers hforms ha hb).covers
  rcases extended_alike hms.json hns.json h hsubs hothers with hsame | ⟨hscalars, hscalars'⟩
  · exact hforms hsame
  · rcases extended_scalars hsubs hscalars ha with rfl | ⟨only, honly, hnot⟩
    · rw [extended_eq_nil hothers hscalars' hb hparts] at hforms
      exact hforms .nil
    · intro p hp ms hms
      obtain rfl := List.mem_singleton.mp (honly ▸ hp)
      exact absurd hms (hnot ms)

theorem choiceLayer_covers (hv : v.IsJson) (hw : w.IsJson) (h : form false v = form false w)
    (ha : choiceLayer v hint = .ok a) (hb : choiceLayer w hint' = .ok b) : Covers b a := by
  obtain ⟨elements, helements, ha⟩ := except_bind_ok_iff.mp ha
  obtain ⟨elements', helements', hb⟩ := except_bind_ok_iff.mp hb
  cases ha
  cases hb
  rcases elements_of_form hv h helements helements' with hforms | ⟨ms, ns, rfl, rfl⟩
  · exact (LayersAlike.choice hforms).covers
  · cases helements
    cases helements'
    intro p hp _ hmapping
    obtain ⟨_, hkey, rfl⟩ := List.mem_map.mp hp
    obtain ⟨m, hm, rfl⟩ := List.mem_map.mp hkey
    obtain ⟨key, hkey⟩ := (Value.isJson_mapping_iff.mp hv).1 m hm
    obtain rfl : key = "" := by
      by_contra hne
      simp [hkey, Value.orEmpty, Value.isTruthy, Scalar.isTruthy, hne] at hmapping
    have hhas : Members.has ns "" := by
      rw [← (alikeMembers_of_form hv h).has "" (by decide), Members.has_eq_isSome,
        Members.get?_isSome_iff]
      exact ⟨m, hm, hkey⟩
    rw [Members.has_eq_isSome, Members.get?_isSome_iff] at hhas
    obtain ⟨n, hn, hblank⟩ := hhas
    refine ⟨_, List.mem_map_of_mem (List.mem_map_of_mem hn), ?_⟩
    rw [hkey, hblank]
    exact .refl _

/-- A layer with mappings as its parts covers the layers of alike schemas. -/
theorem layer_covers (hdocument : document.IsJson) (hv : Tame document v) (hw : Tame document w)
    (h : Alike v w) (ha : layer document v hint = .ok a) (hb : layer document w hint' = .ok b)
    (hparts : HasMappings b) : Covers b a := by
  rcases layer_cases hv hw h ha hb with halike | ⟨ms, ns, rfl, rfl, hmembers, ha, hb⟩ |
    ⟨x, y, hx, hy, hform, ha, hb⟩
  · exact halike.covers
  · exact extensionLayer_covers hdocument hv hw hmembers ha hb hparts
  · exact choiceLayer_covers hx hy hform ha hb

end OpenApiClient.Schema

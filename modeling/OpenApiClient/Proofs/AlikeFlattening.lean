import OpenApiClient.Proofs.AlikeSchemas

/-! # Flattening alike schemas

Alike schemas flatten to the same properties, up to their order and their documentation, and to the
same required names. How deep the flattening may go does not matter once it succeeds. -/
namespace OpenApiClient

theorem Members.get?_setAll (ms : Members) {more : Members} (h : (Value.mapping more).IsJson)
    (key : String) : get? (setAll ms more) key = (get? more key).or (get? ms key) := by
  obtain ⟨htext, hnodup, -⟩ := Value.isJson_mapping_iff.mp h
  clear h
  unfold setAll
  induction more generalizing ms with
  | nil => rfl
  | cons m rest ih =>
    obtain ⟨_, v⟩ := m
    obtain ⟨⟨other, rfl⟩, hrest⟩ := List.forall_mem_cons.mp htext
    obtain ⟨hnew, hnodup⟩ := List.nodup_cons.mp hnodup
    rw [List.foldl_cons, ih _ hrest hnodup, get?_set, get?_cons]
    by_cases hkey : key = other
    · have hnone : get? rest key = none := by
        rw [get?_eq_none_iff]
        rintro n hn hnkey
        exact hnew (List.mem_map.mpr ⟨n, hn, hnkey.trans (congrArg _ hkey)⟩)
      rw [hnone, if_pos hkey, if_pos (congrArg _ hkey.symm)]
      rfl
    · have hne : ¬ Scalar.text other = .text key := fun h => hkey (Scalar.text.inj h).symm
      rw [if_neg hkey, if_neg hne]

namespace Schema

open Relation

variable {document schema : Value} {ms ns ps qs : Members} {v w x y : Value} {key : String}
  {subs others : List Value} {f g d e : Flat}

structure FieldsAlike (ps qs : Members) : Prop where
  left : (Value.mapping ps).IsJson
  right : (Value.mapping qs).IsJson
  forms (key : String) :
    (Members.get? ps key).map (form false) = (Members.get? qs key).map (form false)

theorem FieldsAlike.nil : FieldsAlike [] [] :=
  ⟨Value.isJson_mapping_iff.mpr (by simp), Value.isJson_mapping_iff.mpr (by simp), fun _ => rfl⟩

theorem FieldsAlike.symm (h : FieldsAlike ps qs) : FieldsAlike qs ps :=
  ⟨h.right, h.left, fun key => (h.forms key).symm⟩

theorem FieldsAlike.mem (h : FieldsAlike ps qs) {m : Scalar × Value} (hm : m ∈ ps) :
    ∃ n ∈ qs, n.1 = m.1 ∧ form false m.2 = form false n.2 := by
  obtain ⟨htext, hnodup, -⟩ := Value.isJson_mapping_iff.mp h.left
  obtain ⟨_, v⟩ := m
  obtain ⟨key, rfl⟩ := htext _ hm
  have hforms := h.forms key
  rw [(Members.get?_eq_some_iff hnodup).mpr hm] at hforms
  cases hget : Members.get? qs key with
  | none => simp [hget] at hforms
  | some w =>
    rw [hget] at hforms
    exact ⟨_, Value.mem_of_get?_eq_some hget, rfl, Option.some.inj hforms⟩

theorem FieldsAlike.eq_nil_iff (h : FieldsAlike ps qs) : ps = [] ↔ qs = [] := by
  have hempty : ∀ {ps qs}, FieldsAlike ps qs → ps = [] → qs = [] := by
    rintro ps qs h rfl
    refine List.eq_nil_iff_forall_not_mem.mpr fun n hn => ?_
    obtain ⟨m, hm, -⟩ := h.symm.mem hn
    simp at hm
  exact ⟨hempty h, hempty h.symm⟩

theorem FieldsAlike.setAll (h : FieldsAlike ps qs) {more more' : Members}
    (hmore : FieldsAlike more more') :
    FieldsAlike (Members.setAll ps more) (Members.setAll qs more') where
  left := by
    obtain ⟨htext, -, hjson⟩ := Value.isJson_mapping_iff.mp hmore.left
    exact Members.isJson_setAll h.left htext hjson
  right := by
    obtain ⟨htext, -, hjson⟩ := Value.isJson_mapping_iff.mp hmore.right
    exact Members.isJson_setAll h.right htext hjson
  forms key := by
    rw [Members.get?_setAll _ hmore.left, Members.get?_setAll _ hmore.right, Option.map_or,
      Option.map_or, hmore.forms, h.forms]

theorem fieldsAlike_of_form (hps : (Value.mapping ps).IsJson) (hqs : (Value.mapping qs).IsJson)
    (h : form true (.mapping ps) = form true (.mapping qs)) : FieldsAlike ps qs :=
  ⟨hps, hqs, fun _ => by
    simpa [holdsProperties] using get?_of_form hps h (by simp [isKept]) (by simp [isKept])⟩

structure FlatsAlike (f g : Flat) : Prop where
  properties : FieldsAlike f.properties g.properties
  required : SameForms f.required g.required

theorem FlatsAlike.empty : FlatsAlike {} {} := ⟨.nil, .nil⟩

theorem FlatsAlike.append (h : FlatsAlike f g) (hde : FlatsAlike d e) :
    FlatsAlike ⟨Members.setAll f.properties d.properties, f.required ++ d.required⟩
      ⟨Members.setAll g.properties e.properties, g.required ++ e.required⟩ where
  properties := h.properties.setAll hde.properties
  required := List.rel_append h.required hde.required

/-- The properties that a regular schema declares: those of a mapping, or none. -/
theorem declared_properties (hms : Regular ms) (h : declared (.mapping ms) = .ok d) :
    Members.get? ms "properties" = some (.mapping d.properties) ∨
      d.properties = [] ∧ ∀ ps, Members.get? ms "properties" ≠ some (.mapping ps) := by
  simp only [declared, get_mapping, except_bind_ok_iff, except_pure_ok_iff, Except.ok.injEq] at h
  obtain ⟨_, rfl, entries, hentries, -, -, -, -, rfl⟩ := h
  cases hget : Members.get? ms "properties" with
  | none =>
    rw [hget] at hentries
    cases hentries
    exact .inr ⟨rfl, by simp⟩
  | some v =>
    rw [hget, Option.getD_some] at hentries
    cases v with
    | mapping ps =>
      rw [Value.orEmpty_mapping] at hentries
      cases hentries
      exact .inl rfl
    | sequence items =>
      rw [hms.properties hget rfl] at hentries
      cases hentries
      exact .inr ⟨rfl, by simp⟩
    | scalar s =>
      refine .inr ⟨?_, by simp⟩
      by_cases htruthy : (Value.scalar s).isTruthy
      · simp only [Value.orEmpty, htruthy, if_true, Value.entries, except_bind_ok_iff] at hentries
        obtain ⟨elements, helements, hpairs⟩ := hentries
        cases s with
        | text t =>
          obtain rfl := Except.ok.inj helements
          cases hlist : t.toList with
          | nil =>
            rw [hlist] at hpairs
            cases hpairs
            rfl
          | cons c rest =>
            rw [hlist, List.map_cons, List.mapM_cons] at hpairs
            obtain ⟨pair, hpair, -⟩ := except_bind_ok_iff.mp hpairs
            simp [Value.asPair, Value.elements, String.toList_singleton, bind, Except.bind] at hpair
        | null => cases helements
        | bool b => cases helements
        | int n => cases helements
        | decimal d => cases helements
      · simp only [Value.orEmpty, htruthy, Bool.false_eq_true, if_false] at hentries
        cases hentries
        rfl

/-- The required names that a regular schema declares: those of a sequence, or none. -/
theorem declared_required (hms : Regular ms) (h : declared (.mapping ms) = .ok d) :
    Members.get? ms "required" = some (.sequence d.required) ∨
      d.required = [] ∧ Members.get? ms "required" = none := by
  simp only [declared, get_mapping, except_bind_ok_iff, except_pure_ok_iff, Except.ok.injEq] at h
  obtain ⟨-, -, -, -, _, rfl, names, hnames, rfl⟩ := h
  cases hget : Members.get? ms "required" with
  | none =>
    rw [hget] at hnames
    cases hnames
    exact .inr ⟨rfl, rfl⟩
  | some v =>
    obtain ⟨items, rfl⟩ := Value.isSequence_iff.mp (hms.required hget)
    rw [hget, Option.getD_some] at hnames
    cases items with
    | nil =>
      cases hnames
      exact .inl rfl
    | cons item rest =>
      cases hnames
      exact .inl rfl

theorem declared_alike (hms : (Value.mapping ms).IsJson) (hns : (Value.mapping ns).IsJson)
    (hmsRegular : Regular ms) (hnsRegular : Regular ns) (h : AlikeMembers ms ns)
    (hd : declared (.mapping ms) = .ok d) (he : declared (.mapping ns) = .ok e) :
    FlatsAlike d e where
  properties := by
    rcases h.cases "properties" (by decide) with ⟨hnone, hnone'⟩ | ⟨v, w, hv, hw, hform⟩
    · rcases declared_properties hmsRegular hd with hget | ⟨hempty, -⟩
      · simp [hnone] at hget
      · rcases declared_properties hnsRegular he with hget | ⟨hempty', -⟩
        · simp [hnone'] at hget
        · rw [hempty, hempty']
          exact .nil
    · have hvJson := isJson_of_get? hms hv
      have hwJson := isJson_of_get? hns hw
      rcases declared_properties hmsRegular hd with hget | ⟨hempty, hnot⟩
      · obtain rfl := Option.some.inj (hv.symm.trans hget)
        obtain ⟨qs, rfl⟩ := mapping_of_form hvJson hform
        rcases declared_properties hnsRegular he with hget' | ⟨-, hnot⟩
        · obtain rfl := Value.mapping.inj (Option.some.inj (hw.symm.trans hget'))
          exact fieldsAlike_of_form hvJson hwJson hform
        · exact absurd hw (hnot qs)
      · rcases declared_properties hnsRegular he with hget' | ⟨hempty', -⟩
        · obtain rfl := Option.some.inj (hw.symm.trans hget')
          obtain ⟨ps, rfl⟩ := mapping_of_form hwJson hform.symm
          exact absurd hv (hnot ps)
        · rw [hempty, hempty']
          exact .nil
  required := by
    rcases declared_required hmsRegular hd with hget | ⟨hempty, hnone⟩
    · obtain ⟨others, hothers, hall⟩ := h.get?_sequence hms "required" (by decide) hget
      rcases declared_required hnsRegular he with hget' | ⟨-, hnone⟩
      · obtain rfl := Value.sequence.inj (Option.some.inj (hothers.symm.trans hget'))
        exact hall
      · simp [hnone] at hothers
    · rcases declared_required hnsRegular he with hget' | ⟨hempty', -⟩
      · obtain ⟨others, hothers, -⟩ := h.symm.get?_sequence hns "required" (by decide) hget'
        simp [hnone] at hothers
      · rw [hempty, hempty']
        exact .nil

/-- Gathering from values of the same forms gives the same, if each of them declares the same. -/
theorem foldlM_alike {step step' : Value → Except Fault Value} (hsubs : SameForms subs others)
    (hstep : ∀ v ∈ subs, ∀ w ∈ others, form false v = form false w → ∀ {x y d e}, step v = .ok x →
      step' w = .ok y → declared x = .ok d → declared y = .ok e → FlatsAlike d e)
    {f' g' : Flat} (hfg : FlatsAlike f g)
    (hf : subs.foldlM (fun f sub => do f.add (← step sub)) f = .ok f')
    (hg : others.foldlM (fun g sub => do g.add (← step' sub)) g = .ok g') : FlatsAlike f' g' := by
  induction hsubs generalizing f g with
  | nil =>
    cases hf
    cases hg
    exact hfg
  | cons hvw _ ih =>
    simp only [List.foldlM_cons, except_bind_ok_iff] at hf hg
    obtain ⟨_, ⟨x, hx, hadd⟩, hf⟩ := hf
    obtain ⟨_, ⟨y, hy, hadd'⟩, hg⟩ := hg
    obtain ⟨d, hd, rfl⟩ := add_ok_iff.mp hadd
    obtain ⟨e, he, rfl⟩ := add_ok_iff.mp hadd'
    have hde := hstep _ List.mem_cons_self _ List.mem_cons_self hvw hx hy hd he
    exact ih (fun v hv w hw => hstep v (List.mem_cons_of_mem _ hv) w (List.mem_cons_of_mem _ hw))
      (hfg.append hde) hf hg

theorem mapping_of_declared (h : declared v = .ok d) : ∃ ms, v = .mapping ms := by
  obtain ⟨_, hget, -⟩ := except_bind_ok_iff.mp h
  obtain ⟨ms, rfl, -⟩ := get_ok_iff.mp hget
  exact ⟨ms, rfl⟩

/-- What a key is required to stand for is there in an alike schema too, and of the same form. -/
theorem require_alike (hv : v.IsJson) (hw : w.IsJson) (h : Alike v w) (key : String)
    (hkey : key ∉ documentationKeys) (hx : v.require key = .ok x) :
    w.mentions key = .ok true ∧ ∃ y, w.require key = .ok y ∧
      form (holdsProperties false (.text key)) x = form (holdsProperties false (.text key)) y := by
  obtain ⟨ms, rfl, hget⟩ := require_ok_iff.mp hx
  obtain ⟨ns, rfl, hns⟩ := h.mapping hv
  rcases hns.cases key hkey with ⟨hnone, -⟩ | ⟨_, y, hget', hy, hform⟩
  · simp [hnone] at hget
  · obtain rfl := Option.some.inj (hget'.symm.trans hget)
    refine ⟨?_, y, require_ok_iff.mpr ⟨ns, rfl, hy⟩, hform⟩
    rw [Value.mentions_mapping, Members.has_eq_isSome, hy]
    rfl

/-- Alike schemas are followed to one end, or both are ends themselves. -/
theorem followRefs_alike (hv : v.IsJson) (hw : w.IsJson) (h : Alike v w) {fuel : Nat}
    {seen : List String} (hx : followRefs document fuel seen v = .ok x)
    (hy : followRefs document fuel seen w = .ok y) : x = y ∨ x = v ∧ y = w := by
  cases fuel with
  | zero =>
    cases hx
    cases hy
    exact .inr ⟨rfl, rfl⟩
  | succ fuel =>
    simp only [followRefs, except_bind_ok_iff] at hx hy
    obtain ⟨mentions, hmentions, hx⟩ := hx
    obtain ⟨mentions', hmentions', hy⟩ := hy
    cases mentions with
    | false =>
      cases mentions' with
      | false =>
        simp only [Bool.false_eq_true, if_false, except_pure_ok_iff] at hx hy
        exact .inr ⟨hx.symm, hy.symm⟩
      | true =>
        simp only [if_true, except_bind_ok_iff] at hy
        obtain ⟨_, htarget, -⟩ := hy
        obtain ⟨htrue, -⟩ := require_alike hw hv h.symm "$ref" (by decide) htarget
        simp [htrue] at hmentions
    | true =>
      simp only [if_true, except_bind_ok_iff] at hx
      obtain ⟨_, htarget, text, htext, hx⟩ := hx
      obtain rfl := asText_ok_iff.mp htext
      obtain ⟨htrue, _, htarget', hform⟩ := require_alike hv hw h "$ref" (by decide) htarget
      obtain rfl := eq_of_form_scalar hform
      obtain rfl := Except.ok.inj (htrue.symm.trans hmentions')
      simp only [if_true, except_bind_ok_iff] at hy
      obtain ⟨_, hsame, text', htext', hy⟩ := hy
      obtain rfl := Except.ok.inj (htarget'.symm.trans hsame)
      obtain rfl := Except.ok.inj (htext.symm.trans htext')
      split at hx
      · rename_i hseen
        simp only [hseen, if_true, except_pure_ok_iff] at hx hy
        exact .inr ⟨hx.symm, hy.symm⟩
      · rename_i hseen
        simp only [hseen, Bool.false_eq_true, if_false] at hy
        exact .inl (Except.ok.inj (hx.symm.trans hy))

theorem Tame.followRefs (hdocument : document.IsJson) (hv : Tame document v) {fuel : Nat}
    {seen : List String} (h : Schema.followRefs document fuel seen v = .ok x) :
    Tame document x := by
  have hpath := (followRefs_ok h).1
  clear h
  induction hpath with
  | refl => exact hv
  | tail _ hstep ih => exact ih.follows hdocument hstep

private theorem flattenWith_scalar {fuel : Nat} {active : List Value} {s : Scalar}
    (h : flattenWith document fuel active (.scalar s) = .ok x) : x = .scalar s := by
  cases fuel with
  | zero => cases h
  | succ fuel =>
    obtain ⟨last, hlast, h⟩ := except_bind_ok_iff.mp h
    have hself : last = .scalar s := by
      obtain ⟨mentions, -, hlast⟩ := except_bind_ok_iff.mp hlast
      cases mentions with
      | false => exact (except_pure_ok_iff.mp hlast).symm
      | true => cases hlast
    subst hself
    obtain ⟨mentions, -, h⟩ := except_bind_ok_iff.mp h
    cases mentions with
    | false => exact (except_pure_ok_iff.mp h).symm
    | true =>
      simp only [if_true] at h
      split at h <;> cases h

theorem eq_nil_of_foldlM {step : Value → Except Fault Value}
    (hstep : ∀ s x, step (.scalar s) = .ok x → x = .scalar s)
    (hsubs : ∀ sub ∈ subs, ∃ s, sub = .scalar s)
    (h : subs.foldlM (fun f sub => do f.add (← step sub)) f = .ok g) : subs = [] := by
  refine List.eq_nil_iff_forall_not_mem.mpr fun sub hsub => ?_
  obtain ⟨b, c, hb⟩ := foldlM_ok_step h sub hsub
  obtain ⟨s, rfl⟩ := hsubs sub hsub
  obtain ⟨x, hx, hadd⟩ := except_bind_ok_iff.mp hb
  obtain rfl := hstep s x hx
  obtain ⟨d, hd, -⟩ := add_ok_iff.mp hadd
  obtain ⟨_, hmapping⟩ := mapping_of_declared hd
  cases hmapping

/-- The elements of values of one form have the same forms, if they are not the keys of mappings. -/
theorem elements_of_form (hv : v.IsJson) (h : form false v = form false w)
    (hsubs : v.elements = .ok subs) (hothers : w.elements = .ok others) :
    SameForms subs others ∨ ∃ ms ns, v = .mapping ms ∧ w = .mapping ns := by
  cases v with
  | scalar s =>
    obtain rfl := eq_of_form_scalar h
    obtain rfl := Except.ok.inj (hsubs.symm.trans hothers)
    exact .inl (List.forall₂_same.mpr fun _ _ => rfl)
  | sequence items =>
    obtain ⟨items', rfl, hall⟩ := sequence_of_form hv h
    cases hsubs
    cases hothers
    exact .inl hall
  | mapping ms =>
    obtain ⟨ns, rfl⟩ := mapping_of_form hv h
    exact .inr ⟨ms, ns, rfl, rfl⟩

/-- The elements of values of one form have the same forms, or are scalars on both sides. -/
theorem elements_alike (hv : v.IsJson) (h : form false v = form false w)
    (hsubs : v.elements = .ok subs) (hothers : w.elements = .ok others) :
    SameForms subs others ∨
      (∀ sub ∈ subs, ∃ s, sub = .scalar s) ∧ ∀ sub ∈ others, ∃ s, sub = .scalar s := by
  rcases elements_of_form hv h hsubs hothers with hforms | ⟨ms, ns, rfl, rfl⟩
  · exact .inl hforms
  · have hkeys : ∀ {ms : Members} {keys : List Value}, (Value.mapping ms).elements = .ok keys →
        ∀ key ∈ keys, ∃ s, key = .scalar s := by
      rintro ms _ ⟨⟩ key hkey
      obtain ⟨m, -, rfl⟩ := List.mem_map.mp hkey
      exact ⟨m.1, rfl⟩
    exact .inr ⟨hkeys hsubs, hkeys hothers⟩

/-- Alike schemas are flattened to what declares the same. -/
theorem flattenWith_alike (hdocument : document.IsJson) {fuel fuel' : Nat}
    {active active' : List Value} (hv : Tame document v) (hw : Tame document w) (h : Alike v w)
    (hx : flattenWith document fuel active v = .ok x)
    (hy : flattenWith document fuel' active' w = .ok y) (hd : declared x = .ok d)
    (he : declared y = .ok e) : FlatsAlike d e := by
  induction fuel generalizing fuel' active active' v w x y d e with
  | zero => cases hx
  | succ fuel ih =>
    cases fuel' with
    | zero => cases hy
    | succ fuel' =>
      obtain ⟨last, hlast, hx⟩ := flattenWith_ok hx
      obtain ⟨last', hlast', hy⟩ := flattenWith_ok hy
      have hlastTame := hv.followRefs hdocument hlast
      have hlastTame' := hw.followRefs hdocument hlast'
      have hlasts : Alike last last' := by
        rcases followRefs_alike hv.json hw.json h hlast hlast' with rfl | ⟨rfl, rfl⟩
        · exact .refl _
        · exact h
      have hown : ∀ {d e}, declared last = .ok d → declared last' = .ok e → FlatsAlike d e := by
        intro d e hd he
        obtain ⟨ms, rfl⟩ := mapping_of_declared hd
        obtain ⟨ns, rfl, hns⟩ := hlasts.mapping hlastTame.json
        exact declared_alike hlastTame.json hlastTame'.json hlastTame.self hlastTame'.self hns hd he
      rcases hx with ⟨hmentions, rfl⟩ | ⟨all, subs, gathered, total, hall, hsubs, hgathered, htotal,
        rfl⟩
      · rcases hy with ⟨-, rfl⟩ | ⟨all', _, _, _, hall', -⟩
        · exact hown hd he
        · obtain ⟨htrue, -⟩ := require_alike hlastTame'.json hlastTame.json hlasts.symm "allOf"
            (by decide) hall'
          simp [htrue] at hmentions
      · obtain ⟨htrue, _, hrequire, hform⟩ := require_alike hlastTame.json hlastTame'.json hlasts
          "allOf" (by decide) hall
        rcases hy with ⟨hmentions, -⟩ | ⟨all', subs', gathered', total', hall', hsubs', hgathered',
          htotal', rfl⟩
        · simp [htrue] at hmentions
        · obtain rfl := Except.ok.inj (hrequire.symm.trans hall')
          obtain rfl := Except.ok.inj ((declared_toSchema total).symm.trans hd)
          obtain rfl := Except.ok.inj ((declared_toSchema total').symm.trans he)
          obtain ⟨own, hownDeclared, rfl⟩ := add_ok_iff.mp htotal
          obtain ⟨own', hownDeclared', rfl⟩ := add_ok_iff.mp htotal'
          refine FlatsAlike.append ?_ (hown hownDeclared hownDeclared')
          have hallJson : all.IsJson := by
            obtain ⟨ms, rfl, hget⟩ := require_ok_iff.mp hall
            exact isJson_of_get? hlastTame.json hget
          rcases elements_alike hallJson hform hsubs hsubs' with hforms | ⟨hscalars, hscalars'⟩
          · refine foldlM_alike hforms (fun v hv w hw hvw x y d e hx hy hd he => ?_) .empty
              hgathered hgathered'
            exact ih (hlastTame.follows hdocument (.member hall hsubs hv))
              (hlastTame'.follows hdocument (.member hall' hsubs' hw)) (.same hvw) hx hy hd he
          · obtain rfl := eq_nil_of_foldlM (fun _ _ => flattenWith_scalar) hscalars hgathered
            obtain rfl := eq_nil_of_foldlM (fun _ _ => flattenWith_scalar) hscalars' hgathered'
            cases hgathered
            cases hgathered'
            exact .empty

/-- What alike schemas that extend others of the same forms gather is the same. -/
theorem gather_alike (hdocument : document.IsJson) (hv : Tame document v) (hw : Tame document w)
    (h : Alike v w) (hforms : SameForms subs others)
    (hsubs : ∀ sub ∈ subs, Tame document sub) (hothers : ∀ sub ∈ others, Tame document sub)
    (hf : gather document subs v = .ok f) (hg : gather document others w = .ok g) :
    FlatsAlike f g := by
  obtain ⟨gathered, hgathered, hadd⟩ := except_bind_ok_iff.mp hf
  obtain ⟨gathered', hgathered', hadd'⟩ := except_bind_ok_iff.mp hg
  obtain ⟨own, hown, rfl⟩ := add_ok_iff.mp hadd
  obtain ⟨own', hown', rfl⟩ := add_ok_iff.mp hadd'
  refine FlatsAlike.append ?_ ?_
  · exact foldlM_alike hforms (fun v hv w hw hvw x y d e hx hy hd he =>
      flattenWith_alike hdocument (hsubs v hv) (hothers w hw) (.same hvw) hx hy hd he) .empty
      hgathered hgathered'
  · obtain ⟨ms, rfl⟩ := mapping_of_declared hown
    obtain ⟨ns, rfl, hns⟩ := h.mapping hv.json
    exact declared_alike hv.json hw.json hv.self hw.self hns hown hown'

end Schema

end OpenApiClient

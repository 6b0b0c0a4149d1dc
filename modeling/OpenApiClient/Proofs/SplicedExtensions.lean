import OpenApiClient.Proofs.FreeFlattening
import OpenApiClient.Proofs.Flattening
import OpenApiClient.Proofs.ResolutionSteps
import OpenApiClient.Proofs.SettingMembers

/-! # Extensions within extensions

A member of `allOf` that does nothing but list others may be replaced by those that it lists. What a
schema gathers from its members is what they contribute one after the other, and a list within the
list contributes what its members do. -/
namespace OpenApiClient.Schema

open RegistryM

variable {document schema sub : Value} {subs left nested right kept : List Value} {f g : Flat}
  {hint : String} {outer : Layer}

/-! ## What members contribute -/

/-- What several schemas declare, one after the other as it stands. -/
def Flat.concat (ds : List Flat) : Flat :=
  ⟨ds.flatMap Flat.properties, ds.flatMap Flat.required⟩

def Flat.settled (f : Flat) : Flat := ⟨Members.setAll [] f.properties, f.required⟩

theorem forall₂_imp_mem {α β : Type} {R S : α → β → Prop} {xs : List α} {ys : List β}
    (h : List.Forall₂ R xs ys) (himp : ∀ x ∈ xs, ∀ y, R x y → S x y) : List.Forall₂ S xs ys := by
  induction h with
  | nil => exact .nil
  | cons hxy _ ih =>
    obtain ⟨hx, hrest⟩ := List.forall_mem_cons.mp himp
    exact .cons (hx _ hxy) (ih hrest)

private theorem forall₂_append_left {α β : Type} {R : α → β → Prop} {xs others : List α} {ys : List β}
    (h : List.Forall₂ R (xs ++ others) ys) :
    ∃ before after, ys = before ++ after ∧ List.Forall₂ R xs before ∧ List.Forall₂ R others after :=
  ⟨_, _, (List.take_append_drop xs.length ys).symm, by simpa using List.forall₂_take xs.length h,
    by simpa using List.forall₂_drop xs.length h⟩

/-- What is gathered from schemas is what each of them declares when it is flattened. -/
theorem foldlM_add_ok_iff {flattenSub : Value → Except Fault Value} :
    subs.foldlM (fun f sub => do f.add (← flattenSub sub)) f = .ok g ↔
      ∃ ds, List.Forall₂ (fun sub d => (flattenSub sub >>= declared) = .ok d) subs ds ∧
        g = ⟨Members.setAll f.properties (Flat.concat ds).properties,
          f.required ++ (Flat.concat ds).required⟩ := by
  induction subs generalizing f with
  | nil =>
    simp only [List.foldlM_nil, except_pure_ok_iff, List.forall₂_nil_left_iff, exists_eq_left]
    rw [eq_comm]
    simp [Flat.concat, Members.setAll]
  | cons sub rest ih =>
    simp only [List.foldlM_cons, except_bind_ok_iff, add_ok_iff, ih]
    constructor
    · rintro ⟨_, ⟨w, hw, d, hd, rfl⟩, ds, hds, rfl⟩
      refine ⟨d :: ds, .cons ⟨w, hw, hd⟩ hds, ?_⟩
      simp [Flat.concat, Members.setAll_append]
    · rintro ⟨_, hall, rfl⟩
      obtain ⟨d, ds, ⟨w, hw, hd⟩, hds, rfl⟩ := List.forall₂_cons_left_iff.mp hall
      refine ⟨_, ⟨w, hw, d, hd, rfl⟩, ds, hds, ?_⟩
      simp [Flat.concat, Members.setAll_append]

/-! ## Fuel and watch -/

/-- What flattens, flattens to the same with any fuel that suffices and less to watch for. -/
theorem flattenWith_of_ok {top flat : Value} {fuel more : Nat} {active fewer : List Value}
    (h : flattenWith document fuel active schema = .ok flat)
    (hschema : schema ∈ document.nodes ++ top.nodes ∨ ∃ s, schema = .scalar s)
    (hnodup : fewer.Nodup) (hfewer : fewer ⊆ document.nodes ++ top.nodes) (hsub' : fewer ⊆ active)
    (hfuel : document.weight + top.weight + 2 ≤ more + fewer.length) :
    flattenWith document more fewer schema = .ok flat := by
  induction fuel generalizing schema active fewer more flat with
  | zero => cases h
  | succ fuel ih =>
    obtain ⟨more, rfl⟩ : ∃ n, more = n + 1 := by
      -- The schemas that are watched for are different nodes, and there are not so many.
      have hlength := (List.subperm_of_subset hnodup hfewer).length_le
      have hdocument := document.length_nodes_le
      have htop := top.length_nodes_le
      simp only [List.length_append] at hlength
      exact ⟨more - 1, by omega⟩
    rw [flattenWith_succ] at h ⊢
    obtain ⟨last, hlast, h⟩ := except_bind_ok_iff.mp h
    have hnode := (hereditary_nodes document top).followRefs hschema hlast
    refine except_bind_ok_iff.mpr ⟨last, hlast, ?_⟩
    split at h
    · cases h
    rename_i hnew
    rw [if_neg fun hagain => hnew ⟨hagain.1, hsub' hagain.2⟩]
    obtain ⟨mentions, hmentions, h⟩ := except_bind_ok_iff.mp h
    refine except_bind_ok_iff.mpr ⟨mentions, hmentions, ?_⟩
    cases mentions with
    | false => exact h
    | true =>
      obtain ⟨all, hall, h⟩ := except_bind_ok_iff.mp h
      obtain ⟨subs, hsubs, h⟩ := except_bind_ok_iff.mp h
      obtain ⟨gathered, hgathered, h⟩ := except_bind_ok_iff.mp h
      obtain ⟨ms, rfl, hget⟩ := require_ok_iff.mp hall
      have hlastNode : Value.mapping ms ∈ document.nodes ++ top.nodes :=
        hnode.resolve_right (by rintro ⟨s, hs⟩; cases hs)
      have hin := hereditary_nodes document top
      refine except_bind_ok_iff.mpr ⟨all, hall, except_bind_ok_iff.mpr ⟨subs, hsubs,
        except_bind_ok_iff.mpr ⟨gathered, ?_, h⟩⟩⟩
      rw [gatherWith, foldlM_add_ok_iff] at hgathered ⊢
      obtain ⟨ds, hds, hgathered⟩ := hgathered
      refine ⟨ds, forall₂_imp_mem hds fun sub hsub d hd => ?_, hgathered⟩
      obtain ⟨flat, hflat, hd⟩ := except_bind_ok_iff.mp hd
      refine except_bind_ok_iff.mpr ⟨flat, ih hflat ?_ ?_ ?_ ?_ ?_, hd⟩
      · exact hin.elements (hin.get? hnode hget) hsubs sub hsub
      · exact List.nodup_cons.mpr ⟨fun hmem => hnew ⟨hmentions, hsub' hmem⟩, hnodup⟩
      · exact List.cons_subset.mpr ⟨hlastNode, hfewer⟩
      · exact List.cons_subset_cons _ hsub'
      · simp only [List.length_cons]
        omega

/-! ## Members that only document -/

def saysMore (sub : Value) : Bool := decide (isRemark sub = .ok false)

def extending (subs : List Value) : Value := .mapping [(.text "allOf", .sequence subs)]

/-- What a member of `allOf` contributes to the schema that lists it. -/
def contribution (document sub : Value) : Except Fault Flat := flatten document sub >>= declared

/-- Whether schemas contribute these declarations, each its own. -/
def Contribute (document : Value) (subs : List Value) (ds : List Flat) : Prop :=
  List.Forall₂ (fun sub d => contribution document sub = .ok d) subs ds

private theorem areRemarks_scalars (keys : List Scalar) :
    ∃ remarks, areRemarks (keys.map .scalar) = .ok remarks ∧
      (remarks = true → ∀ key ∈ keys, ∃ s ∈ remarkKeys, key = .text s) := by
  induction keys with
  | nil => exact ⟨true, rfl, by simp⟩
  | cons key rest ih =>
    obtain ⟨remarks, hrest, hall⟩ := ih
    cases key with
    | text s =>
      by_cases hs : s ∈ remarkKeys
      · refine ⟨remarks, ?_, fun hremarks => List.forall_mem_cons.mpr ⟨⟨s, hs, rfl⟩, hall hremarks⟩⟩
        simpa [areRemarks, Value.asScalar, hs, bind, Except.bind] using hrest
      · refine ⟨false, ?_, by simp⟩
        simp [areRemarks, Value.asScalar, hs, bind, Except.bind, pure, Except.pure]
    | null | bool _ | int _ | decimal _ => exact ⟨false, rfl, by simp⟩

/-- A mapping documents or says more; in the first case all its keys are for documentation. -/
theorem isRemark_mapping (ms : Members) :
    ∃ remark, isRemark (.mapping ms) = .ok remark ∧
      (remark = true → ∀ m ∈ ms, ∃ s ∈ remarkKeys, m.1 = .text s) := by
  obtain ⟨remarks, h, hall⟩ := areRemarks_scalars (ms.map Prod.fst)
  refine ⟨remarks, ?_, fun hremarks m hm => hall hremarks m.1 (List.mem_map_of_mem hm)⟩
  rw [List.map_map] at h
  exact h

theorem mapping_of_contribution (h : contribution document sub = .ok f) :
    ∃ ms, sub = .mapping ms := by
  obtain ⟨flat, hflat, hdeclared⟩ := except_bind_ok_iff.mp h
  obtain ⟨last, hlast, hstep⟩ := flattenWith_ok hflat
  have hend : ∃ ms, last = .mapping ms := by
    rcases hstep with ⟨-, rfl⟩ | ⟨all, _, _, _, hall, -⟩
    · obtain ⟨_, hproperties, -⟩ := except_bind_ok_iff.mp hdeclared
      obtain ⟨ms, rfl, -⟩ := get_ok_iff.mp hproperties
      exact ⟨ms, rfl⟩
    · obtain ⟨ms, rfl, -⟩ := require_ok_iff.mp hall
      exact ⟨ms, rfl⟩
  obtain ⟨mentions, hmentions, h⟩ := except_bind_ok_iff.mp hlast
  cases mentions with
  | false =>
    rw [followRefs_of_not_mentions hmentions] at hlast
    exact Except.ok.inj hlast ▸ hend
  | true =>
    obtain ⟨_, hreference, -⟩ := except_bind_ok_iff.mp h
    obtain ⟨ms, rfl, -⟩ := require_ok_iff.mp hreference
    exact ⟨ms, rfl⟩

private theorem flatten_of_not_mentions (href : schema.mentions "$ref" = .ok false)
    (hall : schema.mentions "allOf" = .ok false) : flatten document schema = .ok schema := by
  rw [flatten, flattenWith_succ, followRefs_of_not_mentions href]
  simp [bind, Except.bind, hall, flattenEnd, pure, Except.pure]

theorem contribution_of_not_saysMore {ms : Members} (h : saysMore (.mapping ms) = false) :
    contribution document (.mapping ms) = .ok {} := by
  obtain ⟨remark, hremark, hall⟩ := isRemark_mapping ms
  have hkeys : ∀ key ∉ remarkKeys, Members.get? ms key = none := by
    intro key hkey
    refine Members.get?_eq_none_iff.mpr fun m hm hmk => ?_
    obtain ⟨s, hs, hms⟩ := hall (by simpa [saysMore, hremark] using h) m hm
    exact hkey (Scalar.text.inj (hmk.symm.trans hms) ▸ hs)
  have hmentions : ∀ key ∉ remarkKeys, (Value.mapping ms).mentions key = .ok false := by
    intro key hkey
    rw [Value.mentions_mapping, Members.has, hkeys key hkey]
    rfl
  rw [contribution, flatten_of_not_mentions (hmentions _ (by decide)) (hmentions _ (by decide))]
  simp only [bind, Except.bind, declared, get_mapping, hkeys "properties" (by decide),
    hkeys "required" (by decide)]
  rfl

theorem contributions_saysMore {ds : List Flat}
    (h : Contribute document subs ds) :
    ∃ kept, Contribute document (subs.filter saysMore) kept ∧
      Flat.concat kept = Flat.concat ds := by
  induction h with
  | nil => exact ⟨[], .nil, rfl⟩
  | @cons sub d rest ds hd _ ih =>
    obtain ⟨kept, hkept, heq⟩ := ih
    by_cases hsays : saysMore sub
    · refine ⟨d :: kept, by rw [List.filter_cons_of_pos hsays]; exact .cons hd hkept, ?_⟩
      simp only [Flat.concat, Flat.mk.injEq, List.flatMap_cons] at heq ⊢
      rw [heq.1, heq.2]
      exact ⟨rfl, rfl⟩
    · obtain ⟨ms, rfl⟩ := mapping_of_contribution hd
      obtain rfl := Except.ok.inj (hd.symm.trans
        (contribution_of_not_saysMore (Bool.eq_false_iff.mpr hsays)))
      exact ⟨kept, by rw [List.filter_cons_of_neg hsays]; exact hkept, heq⟩

/-! ## A list within the list -/

/-- A schema that does nothing but list others contributes what they do. -/
theorem contribution_extending (h : contribution document (extending nested) = .ok f) :
    ∃ ds, Contribute document nested ds ∧ f = (Flat.concat ds).settled := by
  obtain ⟨flat, hflat, hdeclared⟩ := except_bind_ok_iff.mp h
  obtain ⟨last, hlast, hstep⟩ := flattenWith_ok hflat
  rw [followRefs_of_not_mentions rfl] at hlast
  obtain rfl := Except.ok.inj hlast
  rcases hstep with ⟨hmentions, -⟩ | ⟨all, subs, gathered, total, hall, hsubs, hgathered, htotal,
    rfl⟩
  · cases hmentions
  · obtain rfl := Except.ok.inj hall
    obtain rfl := Except.ok.inj hsubs
    obtain ⟨ds, hds, rfl⟩ := foldlM_add_ok_iff.mp hgathered
    obtain ⟨own, hown, rfl⟩ := add_ok_iff.mp htotal
    obtain rfl := Except.ok.inj hown
    obtain rfl := Except.ok.inj ((declared_toSchema _).symm.trans hdeclared)
    refine ⟨ds, forall₂_imp_mem hds fun sub _ d hd => ?_, ?_⟩
    · obtain ⟨w, hw, hd⟩ := except_bind_ok_iff.mp hd
      refine except_bind_ok_iff.mpr ⟨w, ?_, hd⟩
      have hnode : sub ∈ document.nodes ++ sub.nodes :=
        List.mem_append_right _ sub.mem_nodes_self
      exact flattenWith_of_ok hw (.inl hnode) .nil (by simp) (by simp) (by simp)
    · simp [Flat.settled, Members.setAll]

/-! ## The layer of a list -/

private theorem filterM_of_ok {α : Type} {p : α → Except Fault Bool} {xs : List α}
    (h : ∀ x ∈ xs, ∃ keep, p x = .ok keep) :
    xs.filterM p = .ok (xs.filter fun x => p x = .ok true) := by
  induction xs with
  | nil => rfl
  | cons x rest ih =>
    obtain ⟨⟨keep, hkeep⟩, hrest⟩ := List.forall_mem_cons.mp h
    rw [filterM_cons, hkeep, ih hrest]
    cases keep <;> simp [bind, Except.bind, pure, Except.pure, hkeep]

def Judged (subs : List Value) : Prop := ∀ sub ∈ subs, ∃ remark, isRemark sub = .ok remark

theorem extended_extending_iff :
    extended (extending subs) = .ok kept ↔ Judged subs ∧ kept = subs.filter saysMore := by
  have hkeep : ∀ sub,
      (do return !(← isRemark sub) : Except Fault Bool) = (isRemark sub).map (!·) := by
    intro sub
    cases isRemark sub <;> rfl
  have hfilter : (fun sub => decide
      ((do return !(← isRemark sub) : Except Fault Bool) = Except.ok true)) = saysMore := by
    funext sub
    rw [hkeep, saysMore]
    rcases isRemark sub with _ | _ | _ <;> rfl
  have hextended : extended (extending subs) =
      subs.filterM fun sub => do return !(← isRemark sub) := rfl
  rw [hextended]
  constructor
  · intro h
    obtain ⟨hall, rfl⟩ := filterM_ok h
    refine ⟨fun sub hsub => ?_, congrArg (subs.filter ·) hfilter⟩
    obtain ⟨keep, hkeep⟩ := hall sub hsub
    obtain ⟨remark, hremark, -⟩ := except_bind_ok_iff.mp hkeep
    exact ⟨remark, hremark⟩
  · rintro ⟨hjudged, rfl⟩
    rw [filterM_of_ok fun sub hsub => ?_, hfilter]
    obtain ⟨remark, hremark⟩ := hjudged sub hsub
    exact ⟨!remark, by rw [hkeep, hremark]; rfl⟩

theorem gather_extending_iff : gather document kept (extending subs) = .ok f ↔
    ∃ ds, Contribute document kept ds ∧ f = (Flat.concat ds).settled := by
  refine except_bind_ok_iff.trans ?_
  constructor
  · rintro ⟨gathered, hgathered, htotal⟩
    obtain ⟨ds, hds, rfl⟩ := foldlM_add_ok_iff.mp hgathered
    obtain ⟨own, hown, rfl⟩ := add_ok_iff.mp htotal
    obtain rfl := Except.ok.inj hown
    exact ⟨ds, hds, by simp [Flat.settled, Members.setAll]⟩
  · rintro ⟨ds, hds, rfl⟩
    refine ⟨_, foldlM_add_ok_iff.mpr ⟨ds, hds, rfl⟩, add_ok_iff.mpr ⟨_, rfl, ?_⟩⟩
    simp [Flat.settled, Members.setAll]

/-- A schema that extends several others is the object of what is gathered from them. -/
theorem extensionLayer_of_several (hkept : extended schema = .ok kept) (h : 2 ≤ kept.length) :
    extensionLayer document schema hint =
      gather document kept schema >>= fun flat => objectLayer flat.toObject hint := by
  rw [extensionLayer, hkept]
  rcases kept with _ | ⟨_, _ | ⟨_, _⟩⟩
  · cases h
  · simp at h
  · rfl

/-- A list with several members that say something is the object that they contribute to. -/
theorem layer_extending_iff (h : 2 ≤ (subs.filter saysMore).length) :
    layer document (extending subs) hint = .ok outer ↔ Judged subs ∧
      ∃ ds, Contribute document (subs.filter saysMore) ds ∧
        objectLayer (Flat.concat ds).settled.toObject hint = .ok outer := by
  have hlayer : layer document (extending subs) hint =
      extensionLayer document (extending subs) hint := rfl
  rw [hlayer]
  constructor
  · intro houter
    obtain ⟨kept, hkept, -⟩ := except_bind_ok_iff.mp houter
    obtain ⟨hjudged, rfl⟩ := extended_extending_iff.mp hkept
    rw [extensionLayer_of_several hkept h] at houter
    obtain ⟨f, hf, houter⟩ := except_bind_ok_iff.mp houter
    obtain ⟨ds, hds, rfl⟩ := gather_extending_iff.mp hf
    exact ⟨hjudged, ds, hds, houter⟩
  · rintro ⟨hjudged, ds, hds, houter⟩
    rw [extensionLayer_of_several (extended_extending_iff.mpr ⟨hjudged, rfl⟩) h]
    exact except_bind_ok_iff.mpr ⟨_, gather_extending_iff.mpr ⟨ds, hds, rfl⟩, houter⟩

theorem concat_append (ds es : List Flat) : Flat.concat (ds ++ es) =
    ⟨(Flat.concat ds).properties ++ (Flat.concat es).properties,
      (Flat.concat ds).required ++ (Flat.concat es).required⟩ := by
  simp [Flat.concat]

theorem settled_concat (ds es fs : List Flat) :
    (Flat.concat (ds ++ (Flat.concat es).settled :: fs)).settled =
      (Flat.concat (ds ++ es ++ fs)).settled := by
  have hsingle : Flat.concat [(Flat.concat es).settled] = (Flat.concat es).settled := by
    simp [Flat.concat]
  rw [List.append_cons, concat_append, concat_append ds, hsingle, concat_append, concat_append ds]
  simp only [Flat.settled, Members.setAll_append,
    Members.setAll_setAll (Members.keysApart_setAll _)]

private theorem concat_congr {es es' : List Flat} (h : Flat.concat es = Flat.concat es')
    (ds fs : List Flat) : Flat.concat (ds ++ es ++ fs) = Flat.concat (ds ++ es' ++ fs) := by
  simp only [concat_append, h]

/-- The layer of a list within a list is that of one list. -/
theorem layer_spliced (hout : ∃ sub ∈ left ++ right, saysMore sub)
    (hall : 2 ≤ ((left ++ nested ++ right).filter saysMore).length)
    (h : layer document (extending (left ++ extending nested :: right)) hint = .ok outer) :
    layer document (extending (left ++ nested ++ right)) hint = .ok outer := by
  have hfilter : (left ++ extending nested :: right).filter saysMore =
      left.filter saysMore ++ extending nested :: right.filter saysMore := by
    rw [List.filter_append, List.filter_cons_of_pos rfl]
  have htwo : 2 ≤ ((left ++ extending nested :: right).filter saysMore).length := by
    obtain ⟨sub, hsub, hsays⟩ := hout
    have hpos : 0 < ((left ++ right).filter saysMore).length :=
      List.length_pos_of_mem (List.mem_filter.mpr ⟨hsub, hsays⟩)
    rw [List.filter_append, List.length_append] at hpos
    rw [hfilter, List.length_append, List.length_cons]
    omega
  obtain ⟨hjudged, _, hds, houter⟩ := (layer_extending_iff htwo).mp h
  rw [hfilter] at hds
  obtain ⟨ds, _, rfl, hleft, hds⟩ := forall₂_append_left hds
  obtain ⟨f, fs, hf, hright, rfl⟩ := List.forall₂_cons_left_iff.mp hds
  obtain ⟨es, hes, rfl⟩ := contribution_extending hf
  obtain ⟨kept, hkept, hconcat⟩ := contributions_saysMore hes
  refine (layer_extending_iff hall).mpr ⟨fun sub hsub => ?_, ds ++ kept ++ fs, ?_, ?_⟩
  · rw [List.append_assoc, List.mem_append, List.mem_append] at hsub
    rcases hsub with hsub | hsub | hsub
    · exact hjudged sub (List.mem_append_left _ hsub)
    · obtain ⟨d, -, hd⟩ := (exists_of_forall₂ hes).1 sub hsub
      obtain ⟨ms, rfl⟩ := mapping_of_contribution hd
      obtain ⟨remark, hremark, -⟩ := isRemark_mapping ms
      exact ⟨remark, hremark⟩
    · exact hjudged sub (List.mem_append_right _ (List.mem_cons_of_mem _ hsub))
  · rw [List.filter_append, List.filter_append]
    exact List.rel_append (List.rel_append hleft hkept) hright
  · rw [concat_congr hconcat, ← settled_concat]
    exact houter

/-! ## Later declarations in the place of earlier ones -/

/-- Whether a type has what was declared one after the other: each key stands where it was declared
first, with the type of the schema that was declared for it last. -/
structure Overriding (resolve : Resolver) (hint : String) (declared : Flat) (body : Body) :
    Prop where
  kind : body.kind = if declared.properties.isEmpty then .map else .object
  keys : body.fields.map Field.key = Members.firstKeys (declared.properties.map Prod.fst)
  latest : ∀ field ∈ body.fields, ∃ v r s,
    Members.at? declared.properties.reverse field.key = some v ∧
      outcome (resolve v (hint ++ " " ++ field.key.display)) r = (.ok field.type, s)
  required : ∀ field ∈ body.fields,
    field.required ↔ ∃ k, .scalar k ∈ declared.required ∧ k.sameKey field.key

variable {resolve : Resolver} {r t : Registry} {ids : List TypeId}

/-- Each field of an object is that of a property, with the type that the property got. -/
theorem fields_of_mapM {required : List Scalar} {ps : Members}
    (h : outcome ((fieldsLayer required ps hint).parts.mapM (resolvePart resolve)) r =
      (.ok ids, t)) :
    ∃ fields, (fieldsLayer required ps hint).frame.fill ids = .object fields ∧
      List.Forall₂ (fun m field => field.key = m.1 ∧ field.required = required.any (·.sameKey m.1) ∧
        ∃ s s', outcome (resolve m.2 (hint ++ " " ++ m.1.display)) s = (.ok field.type, s'))
        ps fields := by
  refine ⟨_, rfl, ?_⟩
  simp only [fieldsLayer] at h
  induction ps generalizing r ids with
  | nil => exact .nil
  | cons m rest ih =>
    rw [List.map_cons, mapM_cons_ok_iff] at h
    obtain ⟨id, s, others, hid, hrest, rfl⟩ := h
    exact .cons ⟨rfl, rfl, r, s, (resolvePart_ok hid).1⟩ (ih hrest)

theorem asScalar_ok_iff {v : Value} {k : Scalar} : v.asScalar = .ok k ↔ v = .scalar k := by
  cases v <;> simp [Value.asScalar]

private theorem requiredNames_toObject (f : Flat) :
    requiredNames f.toObject = f.required.mapM Value.asScalar := by
  have hnames : ∀ xs : List Value, (Value.sequence xs).orNone.elements = .ok xs := by
    intro xs
    cases xs <;> rfl
  simp [requiredNames, Flat.toObject, Members.get?_cons, hnames, bind, Except.bind]

/-- A name is required when it is among the required names, which are scalars. -/
theorem any_requiredNames {required : List Scalar} (h : requiredNames f.toObject = .ok required)
    (key : Scalar) :
    required.any (·.sameKey key) ↔ ∃ k, .scalar k ∈ f.required ∧ k.sameKey key := by
  rw [requiredNames_toObject, mapM_ok_iff_forall₂] at h
  rw [List.any_eq_true]
  constructor
  · rintro ⟨k, hk, hkey⟩
    obtain ⟨v, hv, hvk⟩ := (exists_of_forall₂ h).2 k hk
    exact ⟨k, asScalar_ok_iff.mp hvk ▸ hv, hkey⟩
  · rintro ⟨k, hk, hkey⟩
    obtain ⟨l, hl, hkl⟩ := (exists_of_forall₂ h).1 _ hk
    exact ⟨k, Except.ok.inj hkl ▸ hl, hkey⟩

theorem overriding_of_objectLayer (h : objectLayer f.settled.toObject hint = .ok outer)
    (hids : outcome (outer.parts.mapM (resolvePart resolve)) r = (.ok ids, t)) :
    Overriding resolve hint f (outer.frame.fill ids) := by
  have hproperties : ∀ ms, f.settled.toObject = .mapping ms →
      Members.get? ms "properties" = some (.mapping (Members.setAll [] f.properties)) := by
    rintro _ hms
    obtain rfl := Value.mapping.inj hms
    rfl
  have hkeys : (Members.setAll [] f.properties).map Prod.fst =
      Members.firstKeys (f.properties.map Prod.fst) := Members.keys_setAll [] f.properties
  have hempty : Members.setAll [] f.properties = [] ↔ f.properties.isEmpty :=
    Members.setAll_eq_nil_iff.trans List.isEmpty_iff.symm
  obtain ⟨ms, hms, ⟨required, members, hrequired, hmembers, hne, rfl⟩ | ⟨hnone, rfl⟩⟩ :=
    objectLayer_ok h
  · have hsettled : Members.setAll [] f.properties = members := by
      simpa [hproperties ms hms] using hmembers
    subst hsettled
    obtain ⟨fields, hbody, hfields⟩ := fields_of_mapM hids
    rw [hbody]
    have hfieldKeys : fields.map Field.key = (Members.setAll [] f.properties).map Prod.fst := by
      rw [← List.forall₂_eq_eq_eq, List.forall₂_map_left_iff, List.forall₂_map_right_iff]
      exact hfields.flip.imp fun _ _ hfield => hfield.1
    exact {
      kind := by rw [if_neg (mt hempty.mpr hne)]; rfl
      keys := hfieldKeys.trans hkeys
      latest := by
        intro field hfield
        obtain ⟨m, hm, hkey, -, s, s', htype⟩ := (exists_of_forall₂ hfields).2 field hfield
        exact ⟨m.2, s, s', hkey ▸ Members.at?_reverse_of_mem_setAll hm, hkey ▸ htype⟩
      required := by
        intro field hfield
        obtain ⟨m, hm, hkey, hrequiredField, -⟩ := (exists_of_forall₂ hfields).2 field hfield
        rw [hrequiredField, hkey]
        exact any_requiredNames hrequired m.1 }
  · rw [hproperties ms hms] at hnone
    have hnil : f.properties.isEmpty := hempty.mp (by simpa using hnone)
    have hfirst : f.properties = [] := List.isEmpty_iff.mp hnil
    exact {
      kind := by rw [if_pos hnil]; rfl
      keys := by rw [hfirst]; rfl
      latest := by simp [mapLayer, Frame.fill, Body.fields]
      required := by simp [mapLayer, Frame.fill, Body.fields] }

/-- A list within a list of extended schemas may be spliced into it: the type and all that is
registered are the same, and later declarations take the place of earlier ones. -/
theorem nested_extension_spliced {e : Entry} (hout : ∃ sub ∈ left ++ right, saysMore sub)
    (hall : 2 ≤ ((left ++ nested ++ right).filter saysMore).length)
    (h : outcome (describe document resolve (extending (left ++ extending nested :: right)) hint)
      r = (.ok e, t)) :
    outcome (describe document resolve (extending (left ++ nested ++ right)) hint) r = (.ok e, t) ∧
      ∃ ds, Contribute document ((left ++ nested ++ right).filter saysMore) ds ∧
        Overriding resolve hint (Flat.concat ds) e.body := by
  obtain ⟨description, outer, ids, hdescription, hlayer, hids, rfl⟩ := describe_ok_iff.mp h
  have hspliced := layer_spliced hout hall hlayer
  obtain ⟨-, ds, hds, houter⟩ := (layer_extending_iff hall).mp hspliced
  refine ⟨describe_ok_iff.mpr ⟨_, outer, ids, rfl, hspliced, hids, ?_⟩, ds, hds,
    overriding_of_objectLayer houter hids⟩
  obtain rfl := Except.ok.inj hdescription
  rfl

def typed (type : String) : Value := .mapping [(.text "type", .text type)]

def declaring (properties : Members) : Value :=
  .mapping [(.text "properties", .mapping properties)]

def petFields : Value :=
  declaring [(.text "name", typed "string"), (.text "age", typed "number")]

def dogFields : List Value :=
  [declaring [(.text "tail", typed "number"), (.text "age", typed "integer")],
    .mapping [(.text "description", .text "A dog")]]

theorem nested_extension_spliced_dog : ∃ e t,
    outcome (describe .empty (resolveAnonymous .empty)
      (extending ([petFields] ++ extending dogFields :: [])) "Dog") {} = (.ok e, t) ∧
    outcome (describe .empty (resolveAnonymous .empty)
      (extending ([petFields] ++ dogFields ++ [])) "Dog") {} = (.ok e, t) ∧
    ∃ ds, Contribute .empty (([petFields] ++ dogFields ++ []).filter saysMore) ds ∧
      Overriding (resolveAnonymous .empty) "Dog" (Flat.concat ds) e.body := by
  refine ⟨_, _, rfl, nested_extension_spliced ⟨petFields, ?_, ?_⟩ ?_ rfl⟩
  · simp
  · decide
  · decide

end OpenApiClient.Schema

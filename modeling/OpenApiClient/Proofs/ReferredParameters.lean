import OpenApiClient.Proofs.CircularSchemas
import OpenApiClient.Proofs.PresentedParameters
import OpenApiClient.Proofs.TracedTypes

/-! # Parameters with shared schemas

A schema that stands in a parameter may be moved to a place that the parameter refers to. The types of
both are described by one schema, and so are the types behind them, one by one: the same ends stand
behind both, though the registries differ. A parameter is decided by its declaration and these ends. So
the move changes no more of it than how its type is written and named. -/
namespace OpenApiClient.Schema

open RegistryM Registry Relation

variable {document schema v v' : Value} {text hint hint' : String} {r s t : Registry}
  {i j k l : TypeId} {b c : Body} {R : TypeId → TypeId → Prop}

/-! ## Types in lockstep -/

def Lockstep (r s : Registry) (R : TypeId → TypeId → Prop) : Prop :=
  ∀ i j, R i j → ∃ b c, r.body? i = some b ∧ s.body? j = some c ∧ c.kind = b.kind ∧
    ∀ k l, b.item? = some k → c.item? = some l → R k l

private theorem Lockstep.flip (h : Lockstep r s R) : Lockstep s r (flip R) := by
  intro j i hij
  obtain ⟨b, c, hb, hc, hkind, hitems⟩ := h i j hij
  exact ⟨c, b, hc, hb, hkind.symm, fun l k hl hk => hitems k l hk hl⟩

private theorem Body.behind?_of_kind (hkind : c.kind = b.kind) (h : b.behind? = some k) :
    b.item? = some k ∧ ∃ l, c.behind? = some l ∧ c.item? = some l := by
  cases b <;> cases c <;> simp_all [behind?, item?, kind]

/-- Types in lockstep have ends of one kind behind them, with items in lockstep. -/
theorem Lockstep.endsIn (h : Lockstep r s R) (hij : R i j) (hend : r.EndsIn i b) :
    ∃ c, s.EndsIn j c ∧ c.kind = b.kind ∧
      ∀ k l, b.item? = some k → c.item? = some l → R k l := by
  obtain ⟨last, hleads, hb, hend⟩ := hend
  induction hleads using ReflTransGen.head_induction_on generalizing j with
  | refl =>
    obtain ⟨_, c, hb', hc, hkind, hitems⟩ := h _ _ hij
    obtain rfl := Option.some.inj (hb.symm.trans hb')
    have hend' : c.isEnd := by rwa [← Body.isEnd_kind, hkind, Body.isEnd_kind]
    exact ⟨c, ⟨j, .refl, hc, hend'⟩, hkind, hitems⟩
  | head hbehind _ ih =>
    obtain ⟨b', hb', hnext⟩ := Option.bind_eq_some_iff.mp hbehind
    obtain ⟨_, c', hb'', hc', hkind, hitems⟩ := h _ _ hij
    obtain rfl := Option.some.inj (hb'.symm.trans hb'')
    obtain ⟨hk, l, hnext', hl⟩ := Body.behind?_of_kind hkind hnext
    obtain ⟨c, hc, hsame⟩ := ih (hitems _ l hk hl)
    exact ⟨c, (endsIn_behind (behind_of_body hc' hnext')).mpr hc, hsame⟩

structure SameEnds (r s : Registry) (i j : TypeId) : Prop where
  kinds : s.endKind? j = r.endKind? i
  items {item item' : TypeId} : r.endBody? i = some (.array item) →
    s.endBody? j = some (.array item') → s.endKind? item' = r.endKind? item

theorem Lockstep.endKind? (h : Lockstep r s R) (hij : R i j) : s.endKind? j = r.endKind? i := by
  refine Option.ext fun kind => ?_
  simp only [Registry.endKind?, Option.map_eq_some_iff, endBody?_eq_some_iff]
  constructor
  · rintro ⟨c, hc, rfl⟩
    obtain ⟨b, hb, hkind, -⟩ := h.flip.endsIn hij hc
    exact ⟨b, hb, hkind⟩
  · rintro ⟨b, hb, rfl⟩
    obtain ⟨c, hc, hkind, -⟩ := h.endsIn hij hb
    exact ⟨c, hc, hkind⟩

private theorem Lockstep.sameEnds (h : Lockstep r s R) (hij : R i j) : SameEnds r s i j where
  kinds := h.endKind? hij
  items {item item'} hi hj := by
    obtain ⟨c, hc, -, hitems⟩ := h.endsIn hij (endBody?_eq_some_iff.mp hi)
    obtain rfl := Option.some.inj (hj.symm.trans (endBody?_eq_some_iff.mpr hc))
    exact h.endKind? (hitems item item' rfl rfl)

/-- Ends that stand in two registries stand in those that extend them, behind all types that have the
same ends there. -/
theorem SameEnds.extends {r' s' : Registry} (h : SameEnds r s i j) (hr : r.WellFormed)
    (hs : s.WellFormed) (hrext : r.Extends r') (hsext : s.Extends s')
    (hk : r'.endBody? k = r.endBody? i) (hl : s'.endBody? l = s.endBody? j) :
    SameEnds r' s' k l where
  kinds := by
    rw [Registry.endKind?, Registry.endKind?, hk, hl]
    exact h.kinds
  items {item item'} hitem hitem' := by
    rw [hk] at hitem
    rw [hl] at hitem'
    rw [Registry.endKind?, Registry.endKind?, endBody?_extends hs hsext (hs.item_lt hitem'),
      endBody?_extends hr hrext (hr.item_lt hitem)]
    exact h.items hitem hitem'

/-! ## Layers that are filled -/

private theorem head?_distinctIds (ids : List TypeId) : (distinctIds ids).head? = ids.head? := by
  have hfold : ∀ members : List TypeId, members ≠ [] → (ids.tail.foldl
      (fun members id => if members.contains id then members else members ++ [id])
        members).head? = members.head? := by
    induction ids.tail with
    | nil => exact fun _ _ => rfl
    | cons id rest ih =>
      intro members hne
      rw [List.foldl_cons]
      split
      · exact ih members hne
      · rw [ih _ (by simp), List.head?_append_of_ne_nil _ hne]
  cases ids with
  | nil => rfl
  | cons id rest => exact hfold [id] (by simp)

theorem Frame.item?_fill {frame : Frame} {ids : List TypeId} (hneeds : frame.needsPart → ids ≠ [])
    (h : (frame.fill ids).item? = some k) : ids.head? = some k := by
  have hhead : frame.needsPart → some (ids.headD 0) = some k → ids.head? = some k := by
    intro hframe hk
    obtain ⟨id, rest, rfl⟩ := List.exists_cons_of_ne_nil (hneeds hframe)
    exact hk
  cases frame with
  | choice =>
    rw [← head?_distinctIds]
    simp only [fill] at h
    split at h
    · rename_i only honly
      rw [honly]
      exact h
    · cases h
  | array => exact hhead rfl h
  | map => exact hhead rfl h
  | optional => exact hhead rfl h
  | synonym => exact hhead rfl h
  | _ => cases h

theorem Frame.kind_fill {is js : List TypeId} (frame : Frame)
    (hR : ∀ {i j i' j'}, R i j → R i' j' → (i = i' ↔ j = j')) (h : List.Forall₂ R is js) :
    (frame.fill js).kind = (frame.fill is).kind := by
  cases frame with
  | choice =>
    have hdistinct := distinctIds_forall₂ hR h
    rw [fill, fill]
    generalize distinctIds is = ms, distinctIds js = ns at hdistinct ⊢
    cases hdistinct with
    | nil => rfl
    | cons hfirst hrest =>
      cases hrest with
      | nil => rfl
      | cons hsecond hrest => rfl
  | _ => rfl

/-! ## Types of one schema -/

variable {traced traced' : Value → TypeId → Prop}

/-- Tables give types for the same schemas that are those of one reference or shape. -/
theorem fills_forall₂ {table table' : Identity → Option TypeId} {parts parts' : List Part}
    {is js : List TypeId} (hparts : parts.map Part.schema = parts'.map Part.schema)
    (his : Fills table parts is) (hjs : Fills table' parts' js) :
    List.Forall₂ (fun i j => ∃ ι, table ι = some i ∧ table' ι = some j) is js := by
  have hsame : List.Forall₂ (fun p q : Part => p.schema = q.schema) parts parts' := by
    have heq : List.Forall₂ Eq (parts.map Part.schema) (parts'.map Part.schema) :=
      hparts ▸ List.forall₂_refl _
    rwa [List.forall₂_map_left_iff, List.forall₂_map_right_iff] at heq
  refine forall₂_of_parts hsame (fun p _ q _ hpq i j hi hj => ?_) his hjs
  obtain ⟨ι, hι, hi⟩ := hi
  obtain ⟨κ, hκ, hj⟩ := hj
  rw [hpq, hκ] at hι
  exact ⟨ι, hi, Except.ok.inj hι ▸ hj⟩

/-- The item of a layer that is filled is traced to the schema of its first part. -/
theorem item_traced {outer : Layer} {ids : List TypeId} {table : Identity → Option TypeId}
    (hlayer : layer document v hint = .ok outer) (hids : Fills table outer.parts ids)
    (hfirst : ∀ p ∈ outer.parts.head?, ∀ j ∈ ids.head?, traced p.schema j)
    (hk : (outer.frame.fill ids).item? = some k) :
    ∃ u, (outer.parts.map Part.schema).head? = some u ∧ traced u k := by
  have hneeds : outer.frame.needsPart → ids ≠ [] := by
    rintro hneeds rfl
    exact parts_ne_nil hlayer hneeds (List.forall₂_nil_right_iff.mp hids)
  have hhead := Frame.item?_fill hneeds hk
  obtain ⟨rest, rfl⟩ := List.head?_eq_some_iff.mp hhead
  obtain ⟨p, _, -, -, hparts⟩ := List.forall₂_cons_right_iff.mp hids
  refine ⟨p.schema, by rw [hparts]; rfl, hfirst p ?_ k rfl⟩
  rw [hparts]
  rfl

/-- Types that are described by one schema are of one kind, and their items are traced to one. -/
theorem Described.same {w : Value} (h : Described document r traced v i)
    (h' : Described document s traced' v' j) (hw : Denotes document v w)
    (hw' : Denotes document v' w) :
    ∃ b c, r.body? i = some b ∧ s.body? j = some c ∧ c.kind = b.kind ∧
      ∀ k l, b.item? = some k → c.item? = some l → ∃ u, traced u k ∧ traced' u l := by
  obtain @⟨_, hint, outer, is, table, hdenotes, hlayer, hb, his, hsingle, hfirst⟩ := h
  obtain @⟨_, hint', outer', js, table', hdenotes', hlayer', hc, hjs, hsingle', hfirst'⟩ := h'
  obtain rfl := hw.unique hdenotes
  obtain rfl := hw'.unique hdenotes'
  have hunhinted : outer.unhinted = outer'.unhinted := by
    have heq := layer_unhinted document w hint hint'
    rw [hlayer, hlayer'] at heq
    exact Except.ok.inj heq
  obtain ⟨hframe, hparts⟩ := Prod.mk.inj hunhinted
  have hids := fills_forall₂ hparts his hjs
  refine ⟨_, _, hb, hc, ?_, fun k l hk hl => ?_⟩
  · rw [← hframe]
    exact outer.frame.kind_fill (repeat_iff_of_tables hsingle hsingle') hids
  · obtain ⟨u, hu, huk⟩ := item_traced hlayer his hfirst hk
    obtain ⟨u', hu', hul⟩ := item_traced hlayer' hjs hfirst' hl
    rw [hparts, hu', Option.some.injEq] at hu
    exact ⟨u, huk, hu ▸ hul⟩

def Codenote (document : Value) (traced traced' : Value → TypeId → Prop) (i j : TypeId) : Prop :=
  ∃ v v' w, traced v i ∧ traced' v' j ∧ Denotes document v w ∧ Denotes document v' w

/-- Traces of two registries go in lockstep from types of one schema. -/
theorem traced_lockstep (h : ∀ v i, traced v i → Described document r traced v i)
    (h' : ∀ v i, traced' v i → Described document s traced' v i) :
    Lockstep r s (Codenote document traced traced') := by
  rintro i j ⟨v, v', w, hi, hj, hw, hw'⟩
  obtain ⟨b, c, hb, hc, hkind, hitems⟩ := (h v i hi).same (h' v' j hj) hw hw'
  refine ⟨b, c, hb, hc, hkind, fun k l hk hl => ?_⟩
  obtain ⟨u, huk, hul⟩ := hitems k l hk hl
  obtain ⟨hu, -⟩ := h u k huk
  exact ⟨u, u, _, huk, hul, hu, hu⟩

/-! ## A schema and a reference to it -/

/-- A reference denotes the schema at its target. -/
theorem denotes_refTo {target : Value} (h : lookup document text = .ok target) :
    Denotes document (refTo text) target :=
  .reference rfl rfl h

/-- The type of a reference to a reference is an alias for a type that is traced to the latter. -/
theorem Described.behind_reference {ms : Members} {other : String}
    (h : Described document s traced v j) (hv : Denotes document v (.mapping ms))
    (hisRef : isReference (.mapping ms) = .ok true)
    (htext : (Value.mapping ms).require "$ref" = .ok (.text other)) :
    ∃ l, s.Behind j l ∧ traced (refTo other) l := by
  obtain @⟨_, hint, outer, ids, table, hdenotes, hlayer, hbody, hids, -, hfirst⟩ := h
  obtain rfl := hv.unique hdenotes
  obtain rfl := Except.ok.inj ((layer_of_reference hisRef htext document hint).symm.trans hlayer)
  obtain ⟨l, _, -, hnil, rfl⟩ := List.forall₂_cons_left_iff.mp hids
  exact ⟨l, behind_of_body hbody rfl, hfirst _ rfl l rfl⟩

/-- Behind a schema and a reference to it stand the same ends. -/
theorem referred_sameEnds {target : Value} (hlookup : lookup document text = .ok target)
    (h : outcome (Schema.resolve document none target false hint) {} = (.ok i, r))
    (h' : outcome (Schema.resolve document none (refTo text) false hint') {} = (.ok j, s)) :
    SameEnds r s i j := by
  obtain ⟨ms, rfl⟩ := (lookup_ok hlookup).1
  obtain ⟨traced, hi, htraced⟩ := resolve_traced h
  obtain ⟨traced', hj, htraced'⟩ := resolve_traced h'
  have hself : (Value.mapping ms).orEmpty = .mapping ms := Value.orEmpty_mapping ms
  rw [hself] at hi
  have hlockstep := traced_lockstep htraced htraced'
  obtain ⟨hdenotes, -⟩ := htraced _ _ hi
  cases hdenotes with
  | shape hisRef =>
    have hw : Denotes document (.mapping ms) (.mapping ms) := by
      simpa only [hself] using Denotes.shape hisRef
    exact hlockstep.sameEnds ⟨_, _, _, hi, hj, hw, denotes_refTo hlookup⟩
  | reference hisRef htext htarget =>
    -- The schema is a reference itself, and so the other type is an alias for that of its target.
    obtain ⟨l, hbehind, hl⟩ := (htraced' _ _ hj).behind_reference (denotes_refTo hlookup)
      (hself ▸ hisRef) (hself ▸ htext)
    have hw := Denotes.reference hisRef htext htarget
    have hends := hlockstep.sameEnds ⟨_, _, _, hi, hl, hw, denotes_refTo htarget⟩
    have hempty : ({} : Registry).Made := .refl
    have hr := (hempty.resolve h).1.wellFormed
    have hs := (hempty.resolve h').1.wellFormed
    exact hends.extends hr hs (.refl r) (.refl s) rfl (endBody?_behind hbehind)

end OpenApiClient.Schema

namespace OpenApiClient.Operation

open Schema Schema.RegistryM

variable {document : Value} {settings : Settings} {item item' parameter parameter' : Value}
  {shared shared' : Members} {component component' text : String} {p q : Parameter}
  {r s : Registry}

/-! ## Parameters -/

def SameApart (item item' : Value) : Prop :=
  ∀ key, key ≠ "schema" → key ≠ "content" → item'.get? key = item.get? key

/-- Parameters that are declared alike have alike what they take from their declaration. -/
theorem Declares.same (h : Declares settings item p) (h' : Declares settings item' q)
    (hitem : SameApart item item') :
    q.name = p.name ∧ q.identifier = p.identifier ∧ q.place = p.place ∧ q.required = p.required ∧
      q.description = p.description ∧ q.inQueryTable = p.inQueryTable := by
  have hget : ∀ key, key ≠ "schema" → key ≠ "content" → item'.get key = item.get key := by
    intro key hschema hcontent
    rw [Value.get, Value.get, hitem key hschema hcontent]
  have hname : q.name = p.name := by
    obtain ⟨raw, hraw, hp⟩ := h.name
    obtain ⟨raw', hraw', hq⟩ := h'.name
    rw [hitem "name" (by decide) (by decide), hraw, Except.ok.injEq] at hraw'
    exact Except.ok.inj (hq.symm.trans (hraw' ▸ hp))
  have hplace : q.place = p.place := by
    obtain ⟨raw, hraw, hp⟩ := h.place
    obtain ⟨raw', hraw', hq⟩ := h'.place
    rw [hitem "in" (by decide) (by decide), hraw, Except.ok.injEq] at hraw'
    exact Option.some.inj (hq.symm.trans (hraw' ▸ hp))
  refine ⟨hname, ?_, hplace, ?_, ?_, ?_⟩
  · obtain ⟨reserved, hreserved, hp⟩ := h.identifier
    obtain ⟨reserved', hreserved', hq⟩ := h'.identifier
    obtain rfl := Except.ok.inj (hreserved.symm.trans hreserved')
    rw [hp, hq, hname]
  · obtain ⟨given, hgiven, hp⟩ := h.required
    obtain ⟨given', hgiven', hq⟩ := h'.required
    rw [hget "required" (by decide) (by decide), hgiven, Except.ok.injEq] at hgiven'
    rw [hp, hq, hplace, hgiven']
  · obtain ⟨given, hgiven, hp⟩ := h.description
    obtain ⟨given', hgiven', hq⟩ := h'.description
    rw [hget "description" (by decide) (by decide), hgiven, Except.ok.injEq] at hgiven'
    rw [hp, hq, hgiven']
  · rw [Bool.eq_iff_iff, h.sent, h'.sent, hplace, hitem "style" (by decide) (by decide)]

/-- What is decided about a parameter is the same with the same ends. -/
theorem Decided.same (h : Decided settings r p) (h' : Decided settings s q)
    (hends : SameEnds r s p.type q.type) (hidentifier : q.identifier = p.identifier)
    (hrequired : q.required = p.required) :
    q.preset = p.preset ∧ q.condition = p.condition ∧ q.serialization = p.serialization ∧
      q.expression = p.expression := by
  have hpresets : (q.preset, q.condition) = (p.preset, p.condition) := by
    rw [h'.presets, h.presets, hends.kinds, hidentifier, hrequired]
  obtain ⟨hpreset, hcondition⟩ := Prod.mk.inj hpresets
  refine ⟨hpreset, hcondition, ?_, ?_⟩
  · rw [h'.serialization, h.serialization, serializationOf_eq, serializationOf_eq, hends.kinds]
  · rw [h'.expression, h.expression, h'.serialization, h.serialization, hidentifier]
    exact serialized_eq hends.kinds (fun _ _ => hends.items) _ _

/-- A parameter whose schema is moved to a place that it refers to is what it was, but for its type
and the description that comes from it. -/
theorem classify_referred {schema : Value} (hlookup : lookup document text = .ok schema)
    (hitem : lookupParameter shared parameter = .ok (item, component))
    (hitem' : lookupParameter shared' parameter' = .ok (item', component'))
    (hsame : SameApart item item') (hschema : parameterSchema item = .ok schema)
    (hschema' : parameterSchema item' = .ok (refTo text))
    (h : outcome (classify document shared settings parameter) {} = (.ok p, r))
    (h' : outcome (classify document shared' settings parameter') {} = (.ok q, s)) :
    q = { p with
          type := q.type, typeText := q.typeText, schemaDescription := q.schemaDescription } := by
  obtain ⟨-, hdecided, _, _, _, _, i, t, hfound, hdeclares, hown, hresolve, ht, hkept, -, hend⟩ :=
    classify_decided .refl h
  obtain ⟨-, hdecided', _, _, _, _, j, u, hfound', hdeclares', hown', hresolve', hu, hkept', -,
    hend'⟩ := classify_decided .refl h'
  obtain ⟨rfl, -⟩ := Prod.mk.inj (Except.ok.inj (hitem.symm.trans hfound))
  obtain ⟨rfl, -⟩ := Prod.mk.inj (Except.ok.inj (hitem'.symm.trans hfound'))
  obtain rfl := Except.ok.inj (hschema.symm.trans hown)
  obtain rfl := Except.ok.inj (hschema'.symm.trans hown')
  have hends : SameEnds r s p.type q.type :=
    (referred_sameEnds hlookup hresolve hresolve').extends ht.wellFormed hu.wellFormed hkept hkept'
      hend hend'
  obtain ⟨hname, hidentifier, hplace, hrequired, hdescription, hsent⟩ :=
    hdeclares.same hdeclares' hsame
  obtain ⟨hpreset, hcondition, hserialization, hexpression⟩ :=
    hdecided.same hdecided' hends hidentifier hrequired
  cases p
  cases q
  simp_all only

/-- Lists of such lists, or null: a schema that is recursive under its name in the document. -/
def nestedLists : Value :=
  .mapping [(.text "type", .text "array"), (.text "nullable", .bool true),
    (.text "items", refTo "#/components/schemas/X")]

def nestedDocument : Value :=
  .mapping [(.text "components", .mapping [(.text "schemas",
    .mapping [(.text "X", nestedLists)])])]

def taggedWith (schema : Value) : Value := withSchema [(.text "name", .text "tags")] schema

theorem classify_referred_nested : ∃ p q r s,
    outcome (classify nestedDocument [] .default (taggedWith nestedLists)) {} = (.ok p, r) ∧
    outcome (classify nestedDocument [] .default
      (taggedWith (refTo "#/components/schemas/X"))) {} = (.ok q, s) ∧
    p.typeText = "Sequence[models.X] | None" ∧ q.typeText = "models.X" ∧
    q = { p with
          type := q.type, typeText := q.typeText, schemaDescription := q.schemaDescription } := by
  have hrun : ∀ (schema : Value) (text : String),
      (outcome (classify nestedDocument [] .default (taggedWith schema)) {}).1.map
        Parameter.typeText = .ok text → ∃ p r,
      outcome (classify nestedDocument [] .default (taggedWith schema)) {} = (.ok p, r) ∧
        p.typeText = text := by
    intro schema text htext
    obtain ⟨p, hp, htext⟩ := except_map_ok_iff.mp htext
    exact ⟨p, _, Prod.ext hp rfl, htext⟩
  obtain ⟨p, r, hp, htext⟩ :=
    hrun nestedLists "Sequence[models.X] | None" (by decide +kernel)
  obtain ⟨q, s, hq, htext'⟩ :=
    hrun (refTo "#/components/schemas/X") "models.X" (by decide +kernel)
  have hlookup : lookup nestedDocument "#/components/schemas/X" = .ok nestedLists := by
    decide
  have hsame : SameApart (taggedWith nestedLists) (taggedWith (refTo "#/components/schemas/X")) :=
    fun _ hkey _ => get?_withSchema hkey _ _
  exact ⟨p, q, r, s, hp, hq, htext, htext', classify_referred hlookup rfl rfl hsame
    (parameterSchema_withSchema _) (parameterSchema_withSchema _) hp hq⟩

end OpenApiClient.Operation

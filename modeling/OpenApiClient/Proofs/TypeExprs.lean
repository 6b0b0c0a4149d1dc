import OpenApiClient.Proofs.ModelNames
import OpenApiClient.Proofs.RenderedTypes
import OpenApiClient.Schema.Definition

/-! # Type expressions

What is written of a type is the text of a tree, where the names of models are leaves of their own.
The qualifier stands in front of these leaves and nowhere else, so they are the models that occur in
the text. All of them are names of types in the registry, and each is defined once. -/
namespace OpenApiClient.Schema

/-- The structure of the text that is written of a type. -/
inductive TypeExpr
  | word (text : String)
  | model (name : String)
  | within (front : String) (item : TypeExpr)
  | quoted (item : TypeExpr)
  | either (first rest : TypeExpr)
  deriving DecidableEq

namespace TypeExpr

def text (qualifier : String) : TypeExpr → String
  | word text => text
  | model name => qualifier ++ name
  | within front item => front ++ item.text qualifier ++ "]"
  | quoted item => Text.quoted (item.text qualifier)
  | either first rest => first.text qualifier ++ " | " ++ rest.text qualifier

def models : TypeExpr → List String
  | word _ => []
  | model name => [name]
  | within _ item | quoted item => item.models
  | either first rest => first.models ++ rest.models

def union : List TypeExpr → TypeExpr
  | [] => word ""
  | [only] => only
  | first :: next :: rest => either first (union (next :: rest))

/-- The expression as it stands in the models module, quoted if it holds the name of a model. -/
def forward (a : TypeExpr) : TypeExpr := if a.models.isEmpty then a else quoted a

private theorem text_union (qualifier : String) (members : List TypeExpr) :
    (union members).text qualifier = " | ".intercalate (members.map (text qualifier)) := by
  induction members with
  | nil => rfl
  | cons first rest ih =>
    cases rest with
    | nil => simp [union]
    | cons next rest =>
      rw [union, text, ih, List.map_cons, List.map_cons, List.map_cons,
        String.intercalate_cons_cons]

theorem models_union (members : List TypeExpr) :
    (union members).models = members.flatMap models := by
  induction members with
  | nil => rfl
  | cons first rest ih =>
    cases rest with
    | nil => simp [union]
    | cons next rest =>
      rw [union, models, ih]
      rfl

@[simp] theorem models_forward (a : TypeExpr) : a.forward.models = a.models := by
  unfold forward
  split <;> rfl

end TypeExpr

def Body.typeExpr (child : View → TypeId → TypeExpr) (view : View) : Body → TypeExpr
  | primitive p => .word p.typeText
  | array item => .within (if view = .accepted then "Sequence[" else "list[") (child .owned item)
  | map item =>
    .within (if view = .accepted then "Mapping[str, " else "dict[str, ") (child .owned item)
  | optional item => .either (child view item) (.word "None")
  | synonym item => child view item
  | union members => .union (members.map (child view))
  | object _ | enumeration _ => .word ""

variable {r t : Registry} {id : TypeId} {b : Body} {view : View} {name : String}
  {child other : View → TypeId → TypeExpr}

theorem Body.typeExpr_congr (h : ∀ view, ∀ i ∈ b.children, child view i = other view i) :
    b.typeExpr child view = b.typeExpr other view := by
  cases b with
  | union members =>
    have hmembers : members.map (child view) = members.map (other view) :=
      List.map_congr_left (h view)
    rw [typeExpr, typeExpr, hmembers]
  | primitive p => rfl
  | object fields => rfl
  | enumeration values => rfl
  | _ => simp only [typeExpr, h _ _ List.mem_cons_self]

theorem Body.exists_of_mem_models (h : name ∈ (b.typeExpr child view).models) :
    ∃ view', ∃ i ∈ b.children, name ∈ (child view' i).models := by
  cases b with
  | union members =>
    rw [typeExpr, TypeExpr.models_union, List.flatMap_map] at h
    obtain ⟨i, hi, hname⟩ := List.mem_flatMap.mp h
    exact ⟨view, i, hi, hname⟩
  | optional item => exact ⟨view, item, List.mem_cons_self, by simpa [typeExpr, TypeExpr.models] using h⟩
  | synonym item => exact ⟨view, item, List.mem_cons_self, h⟩
  | array item | map item => exact ⟨.owned, item, List.mem_cons_self, h⟩
  | primitive p | object fields | enumeration values => simp [typeExpr, TypeExpr.models] at h

theorem Body.models_typeExpr_isEmpty {mentions : TypeId → Bool}
    (h : ∀ view, ∀ i ∈ b.children, (child view i).models.isEmpty = !mentions i) :
    (b.typeExpr child view).models.isEmpty = !b.children.any mentions := by
  cases b with
  | union members =>
    have hmembers : ∀ i ∈ members, (child view i).models = [] ↔ mentions i = false := by
      intro i hi
      have hi := h view i hi
      rw [Bool.eq_iff_iff] at hi
      simpa using hi
    rw [typeExpr, TypeExpr.models_union, Bool.eq_iff_iff]
    simp only [List.isEmpty_iff, List.flatMap_map, List.flatMap_eq_nil_iff, children,
      Bool.not_eq_true', List.any_eq_false, Bool.not_eq_true]
    exact forall₂_congr hmembers
  | optional item =>
    have hitem := h view item List.mem_cons_self
    simpa [typeExpr, TypeExpr.models, children] using hitem
  | synonym item =>
    have hitem := h view item List.mem_cons_self
    simpa [typeExpr, TypeExpr.models, children] using hitem
  | array item | map item =>
    have hitem := h .owned item List.mem_cons_self
    simpa [typeExpr, TypeExpr.models, children] using hitem
  | primitive p | object fields | enumeration values => rfl

/-- The text of a body is the text of its expression when this holds of the types in it. -/
theorem Body.typeText_typeExpr {qualifier : String} (hneeds : b.needsName = false)
    {written : View → TypeId → Except Fault String}
    (h : ∀ view, ∀ i ∈ b.children, written view i = .ok ((child view i).text qualifier)) :
    b.typeText written view = .ok ((b.typeExpr child view).text qualifier) := by
  cases b with
  | primitive p => rfl
  | object fields => cases hneeds
  | enumeration values => cases hneeds
  | union members =>
    have hmembers : members.mapM (written view) =
        .ok (members.map fun i => (child view i).text qualifier) :=
      (mapM_congr (h view)).trans List.mapM_pure
    rw [typeText, hmembers, typeExpr, TypeExpr.text_union, List.map_map]
    rfl
  | synonym item => exact h view item List.mem_cons_self
  | optional item =>
    rw [typeText, h view item List.mem_cons_self, typeExpr, TypeExpr.text, TypeExpr.text,
      String.append_assoc]
    rfl
  | _ item =>
    rw [typeText, h .owned item List.mem_cons_self]
    rfl

namespace Registry

def typeExpr (r : Registry) (view : View) (id : TypeId) : TypeExpr :=
  match r.entries[id]? with
  | none => .word ""
  | some e =>
    match e.name with
    | some name => .model name
    | none =>
      e.body.typeExpr
        (fun view child => if child < id then typeExpr r view child else .word "") view
termination_by id

theorem WellFormed.typeExpr_eq (h : r.WellFormed) (view : View) (id : TypeId) :
    r.typeExpr view id =
      match r.entries[id]? with
      | none => .word ""
      | some e => e.name.elim (e.body.typeExpr r.typeExpr view) .model := by
  rw [typeExpr]
  cases he : r.entries[id]? with
  | none => rfl
  | some e =>
    cases hname : e.name with
    | some name => simp [hname]
    | none =>
      simp only [hname, Option.elim_none]
      exact Body.typeExpr_congr fun view i hi =>
        if_pos (h.older he hname i (children_subset_ids hi))

theorem WellFormed.typeTextWith_typeExpr (h : r.WellFormed) (qualifier : String) (view : View)
    (hid : id < r.entries.size) :
    r.typeTextWith qualifier view id = .ok ((r.typeExpr view id).text qualifier) := by
  -- The types in a type without a name are before it; a type with a name is not looked into.
  induction id using Nat.strongRecOn generalizing view with
  | ind id ih =>
    have he := Array.getElem?_eq_getElem hid
    rw [h.typeTextWith_eq, h.typeExpr_eq, entry, he]
    simp only [bind, Except.bind]
    cases hname : r.entries[id].name with
    | some name => rfl
    | none =>
      refine Body.typeText_typeExpr (h.needsName_eq_false he hname) fun view i hi => ?_
      have hlt := h.older he hname i (children_subset_ids hi)
      exact ih i hlt view (Nat.lt_trans hlt hid)

/-- The models that occur in what is written of a type are types of the registry. -/
theorem mem_modelNames_of_mem_models (h : name ∈ (r.typeExpr view id).models) :
    name ∈ r.modelNames := by
  induction id using Nat.strongRecOn generalizing view with
  | ind id ih =>
    rw [typeExpr] at h
    cases he : r.entries[id]? with
    | none => simp [he, TypeExpr.models] at h
    | some e =>
      cases hname : e.name with
      | some other =>
        simp only [he, hname, TypeExpr.models, List.mem_singleton] at h
        have hmem : e ∈ r.entries.toList := Array.mem_toList_iff.mpr (Array.mem_of_getElem? he)
        exact List.mem_filterMap.mpr ⟨e, hmem, by rw [hname, h]⟩
      | none =>
        simp only [he, hname] at h
        obtain ⟨view', i, -, hi⟩ := Body.exists_of_mem_models h
        split at hi
        · exact ih i ‹_› hi
        · simp [TypeExpr.models] at hi

/-- What is written of a type stays the same while the registry grows. -/
theorem WellFormed.typeExpr_extends (hr : r.WellFormed) (h : r.Extends t) (view : View)
    (hid : id < r.entries.size) : t.typeExpr view id = r.typeExpr view id := by
  induction id using Nat.strongRecOn generalizing view with
  | ind id ih =>
    rw [typeExpr, typeExpr, h.entry hid]
    cases he : r.entries[id]? with
    | none => rfl
    | some e =>
      cases hname : e.name with
      | some name => simp only [hname]
      | none =>
        simp only [hname]
        refine Body.typeExpr_congr fun view i hi => ?_
        have hlt := hr.older he hname i (children_subset_ids hi)
        rw [if_pos hlt, if_pos hlt, ih i hlt view (Nat.lt_trans hlt hid)]

theorem models_isEmpty_eq (r : Registry) (view : View) (id : TypeId) :
    (r.typeExpr view id).models.isEmpty = !r.mentionsModel id := by
  induction id using Nat.strongRecOn generalizing view with
  | ind id ih =>
    rw [typeExpr, mentionsModel]
    cases he : r.entries[id]? with
    | none => rfl
    | some e =>
      cases hname : e.name with
      | some name => simp [hname, TypeExpr.models]
      | none =>
        simp only [hname, Option.isSome_none, Bool.false_or]
        refine Body.models_typeExpr_isEmpty fun view i hi => ?_
        split
        · exact ih i ‹_› view
        · rfl

/-! ## Definitions -/

def bodyExpr (r : Registry) (body : Body) : TypeExpr :=
  (body.typeExpr r.typeExpr .owned).forward

def fieldExpr (r : Registry) (f : Field) : TypeExpr :=
  let written := (r.typeExpr .owned f.type).forward
  if f.required then written else .within "NotRequired[" written

/-- What is written in the definition of a type: of its properties, or of the type that it stands
for. -/
def typeExprs (r : Registry) : Body → List TypeExpr
  | .object fields => fields.map r.fieldExpr
  | .enumeration _ => []
  | body => [r.bodyExpr body]

theorem WellFormed.bodyText_typeExpr (h : r.WellFormed) (hneeds : b.needsName = false)
    (hids : ∀ i ∈ b.ids, i < r.entries.size) :
    r.bodyText b = .ok ((r.bodyExpr b).text "") := by
  have hwritten : b.typeText (r.typeTextWith "") .owned =
      .ok ((b.typeExpr r.typeExpr .owned).text "") :=
    Body.typeText_typeExpr hneeds fun view i hi =>
      h.typeTextWith_typeExpr "" view (hids i (children_subset_ids hi))
  have hempty : (b.typeExpr r.typeExpr .owned).models.isEmpty = !b.children.any r.mentionsModel :=
    Body.models_typeExpr_isEmpty fun view i _ => r.models_isEmpty_eq view i
  rw [bodyText, hwritten, bodyExpr, TypeExpr.forward, hempty]
  simp only [bind, Except.bind]
  cases b.children.any r.mentionsModel <;> rfl

theorem WellFormed.forwardText_typeExpr (h : r.WellFormed) (hid : id < r.entries.size) :
    r.forwardText id = .ok ((r.typeExpr .owned id).forward.text "") := by
  have he := Array.getElem?_eq_getElem hid
  rw [forwardText, entry, he, h.typeExpr_eq, he]
  simp only [bind, Except.bind]
  cases hname : r.entries[id].name with
  | some name =>
    simp [TypeExpr.forward, TypeExpr.models, TypeExpr.text, pure, Except.pure]
  | none => exact h.bodyText_typeExpr (h.needsName_eq_false he hname) (h.ids he)

/-- Whether descriptions and the names of properties are texts, without which there are no
definitions. -/
structure HasTexts (r : Registry) : Prop where
  description {e : Entry} : e ∈ r.entries.toList → ∃ s, e.description = .text s
  key {e : Entry} : e ∈ r.entries.toList → ∀ f ∈ e.body.fields, ∃ s, f.key = .text s
  field {e : Entry} : e ∈ r.entries.toList → ∀ f ∈ e.body.fields, ∃ s, f.description = .text s

end Registry

theorem exists_stripped (s : String) : ∃ text, (Value.text s).stripped = .ok text := by
  rw [Value.stripped, Value.orBlank]
  split <;> exact ⟨_, rfl⟩

private theorem allClassKeys_ok {keys : List Scalar} (h : ∀ key ∈ keys, ∃ s, key = .text s) :
    ∃ classSyntax, allClassKeys keys = .ok classSyntax := by
  induction keys with
  | nil => exact ⟨true, rfl⟩
  | cons key keys ih =>
    obtain ⟨s, rfl⟩ := h key List.mem_cons_self
    obtain ⟨rest, hrest⟩ := ih fun key hkey => h key (List.mem_cons_of_mem _ hkey)
    rw [allClassKeys, isClassKey]
    cases Text.isIdentifier s && !Naming.keywords.contains s with
    | true => exact ⟨rest, hrest⟩
    | false => exact ⟨false, rfl⟩

/-- The texts that a model refers to types by: those of its properties, or the one that it stands
for. -/
def ModelForm.texts : ModelForm → List String
  | record fields _ => fields.map ModelField.typeText
  | enumeration _ => []
  | synonym target => [target]

namespace Registry

private theorem WellFormed.modelField_typeExpr (h : r.WellFormed) {f : Field}
    (hid : f.type < r.entries.size) {s : String} (hdescription : f.description = .text s) :
    ∃ written, r.modelField f = .ok written ∧
      written.typeText = (r.fieldExpr f).text "" := by
  obtain ⟨text, htext⟩ := exists_stripped s
  rw [modelField, h.forwardText_typeExpr hid, hdescription, htext]
  refine ⟨_, rfl, ?_⟩
  rw [fieldExpr]
  cases f.required <;> rfl

theorem WellFormed.model?_typeExprs (h : r.WellFormed) (htexts : r.HasTexts) {e : Entry}
    (he : e ∈ r.entries.toList) (hname : e.name = some name) :
    ∃ model, r.model? e = .ok (some model) ∧ model.name = name ∧
      model.form.texts = (r.typeExprs e.body).map (TypeExpr.text "") := by
  obtain ⟨s, hs⟩ := htexts.description he
  obtain ⟨docs, hdocs⟩ := exists_stripped s
  obtain ⟨id, hid⟩ := Array.mem_iff_getElem?.mp (Array.mem_toList_iff.mp he)
  have hids := h.ids hid
  have hsynonym : e.body.needsName = false →
      r.bodyText e.body = .ok ((r.bodyExpr e.body).text "") :=
    fun hneeds => h.bodyText_typeExpr hneeds hids
  have hkeys := htexts.key he
  have hfields := htexts.field he
  rw [model?, hname, hs, hdocs]
  cases hbody : e.body with
  | object fields =>
    rw [hbody] at hids hkeys hfields
    have hfield : ∀ f ∈ fields, ∃ written, r.modelField f = .ok written ∧
        written.typeText = (r.fieldExpr f).text "" := by
      intro f hf
      obtain ⟨s, hs⟩ := hfields f hf
      have htype : f.type ∈ (Body.object fields).ids :=
        List.mem_append_right _ (List.mem_map_of_mem hf)
      exact h.modelField_typeExpr (hids _ htype) hs
    obtain ⟨written, hwritten, htypes⟩ := exists_mapM_ok_map hfield
    obtain ⟨classSyntax, hclass⟩ :
        ∃ classSyntax, allClassKeys (fields.map Field.key) = .ok classSyntax :=
      allClassKeys_ok (List.forall_mem_map.mpr hkeys)
    refine ⟨⟨name, docs, .record written classSyntax⟩, ?_, rfl, ?_⟩
    · simp only [bind, Except.bind, hwritten, hclass]
      rfl
    · rw [ModelForm.texts, htypes, typeExprs, List.map_map]
      rfl
  | enumeration values => exact ⟨_, rfl, rfl, rfl⟩
  | _ =>
    rw [hbody] at hsynonym
    refine ⟨⟨name, docs, .synonym _⟩, ?_, rfl, rfl⟩
    simp only [bind, Except.bind, hsynonym rfl]
    rfl

/-- A registry of texts has definitions: one for each type with a name, which refers to other types
by their expressions. -/
theorem WellFormed.models_typeExprs (h : r.WellFormed) (htexts : r.HasTexts) :
    ∃ models, r.models = .ok models ∧ models.map Model.name = r.modelNames ∧
      ∀ model ∈ models, ∃ e ∈ r.entries.toList, e.name = some model.name ∧
        model.form.texts = (r.typeExprs e.body).map (TypeExpr.text "") := by
  have hmodel : ∀ e ∈ r.entries.toList, ∃ found, r.model? e = .ok found ∧
      found.map Model.name = e.name := by
    intro e he
    cases hname : e.name with
    | none => exact ⟨none, by rw [model?, hname]; rfl, rfl⟩
    | some name =>
      obtain ⟨model, hmodel, rfl, -⟩ := h.model?_typeExprs htexts he hname
      exact ⟨some model, hmodel, rfl⟩
  obtain ⟨found, hfound, hnames⟩ := exists_mapM_ok_map hmodel
  refine ⟨found.filterMap id, by rw [models, hfound]; rfl, ?_, fun model hmem => ?_⟩
  · have hfilter : r.modelNames = (r.entries.toList.map Entry.name).filterMap id := by
      rw [List.filterMap_map]
      rfl
    rw [hfilter, ← hnames, List.filterMap_map, List.map_filterMap]
    rfl
  · obtain ⟨_, hmem, rfl⟩ := List.mem_filterMap.mp hmem
    obtain ⟨e, he, hok⟩ := exists_mem_of_mapM_ok hfound hmem
    cases hname : e.name with
    | none =>
      rw [model?, hname] at hok
      cases hok
    | some name =>
      obtain ⟨other, hother, rfl, hforms⟩ := h.model?_typeExprs htexts he hname
      obtain rfl := Option.some.inj (Except.ok.inj (hother.symm.trans hok))
      exact ⟨e, he, hname, hforms⟩

theorem mem_modelNames_of_mem_typeExprs {a : TypeExpr} (ha : a ∈ r.typeExprs b)
    (hname : name ∈ a.models) : name ∈ r.modelNames := by
  have hbody : ∀ {body : Body}, name ∈ (r.bodyExpr body).models → name ∈ r.modelNames := by
    intro body hname
    rw [bodyExpr, TypeExpr.models_forward] at hname
    obtain ⟨view, i, -, hi⟩ := Body.exists_of_mem_models hname
    exact mem_modelNames_of_mem_models hi
  cases b with
  | object fields =>
    obtain ⟨f, -, rfl⟩ := List.mem_map.mp ha
    have hfield : name ∈ (r.typeExpr .owned f.type).models := by
      rw [fieldExpr] at hname
      split at hname
      · rwa [TypeExpr.models_forward] at hname
      · rwa [TypeExpr.models, TypeExpr.models_forward] at hname
    exact mem_modelNames_of_mem_models hfield
  | enumeration values => cases ha
  | _ =>
    obtain rfl := List.mem_singleton.mp ha
    exact hbody hname

end Registry

end OpenApiClient.Schema

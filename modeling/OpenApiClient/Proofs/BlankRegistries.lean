import OpenApiClient.Proofs.BlankLayers
import OpenApiClient.Proofs.RenderedTypes
import OpenApiClient.Schema.Definition

/-! # Registries with blank descriptions

The types of a registry with blank descriptions are those of the registry, and are written alike.
Its models are the models of the registry without their documentation. -/
namespace OpenApiClient.Schema

variable {r s : Registry} {id : TypeId} {e f : Entry}

def Field.blanked (f : Field) : Field := { f with description := asBlank f.description }

def Body.blanked : Body → Body
  | object fields => .object (fields.map Field.blanked)
  | body => body

def Entry.blanked (e : Entry) : Entry :=
  { e with body := e.body.blanked, description := asBlank e.description }

def Registry.blanked (r : Registry) : Registry := { r with entries := r.entries.map Entry.blanked }

/-! ## Bodies -/

namespace Body

variable (b : Body)

@[simp] theorem kind_blanked : b.blanked.kind = b.kind := by cases b <;> rfl

@[simp] theorem item?_blanked : b.blanked.item? = b.item? := by cases b <;> rfl

@[simp] theorem members_blanked : b.blanked.members = b.members := by cases b <;> rfl

@[simp] theorem values_blanked : b.blanked.values = b.values := by cases b <;> rfl

@[simp] theorem children_blanked : b.blanked.children = b.children := by cases b <;> rfl

@[simp] theorem needsName_blanked : b.blanked.needsName = b.needsName := by cases b <;> rfl

private theorem fields_blanked : b.blanked.fields = b.fields.map Field.blanked := by cases b <;> rfl

theorem typeText_blanked (child : View → TypeId → Except Fault String) (view : View) :
    b.blanked.typeText child view = b.typeText child view := by cases b <;> rfl

end Body

theorem Frame.fill_blanked (frame : Frame) (ids : List TypeId) :
    frame.blanked.fill ids = (frame.fill ids).blanked := by
  cases frame with
  | object properties =>
    simp only [Frame.blanked, fill, Body.blanked, List.zipWith_map_left, List.map_zipWith,
      Field.blanked]
  | choice =>
    simp only [Frame.blanked, fill]
    split <;> rfl
  | _ => rfl

/-- Whether two types are the same but for their descriptions. -/
structure Entry.SameType (e f : Entry) : Prop where
  kind : e.body.kind = f.body.kind
  name : e.name = f.name
  item : e.body.item? = f.body.item?
  members : e.body.members = f.body.members
  values : e.body.values = f.body.values
  fields : e.body.fields.map (fun p => (p.key, p.type, p.required)) =
    f.body.fields.map fun p => (p.key, p.type, p.required)

/-- Types that are equal once their descriptions are blank differ in these alone. -/
theorem Entry.sameType_of_blanked (h : e.blanked = f.blanked) : e.SameType f where
  kind := by simpa [blanked] using congrArg (fun e => e.body.kind) h
  name := (congrArg Entry.name h : e.blanked.name = f.blanked.name)
  item := by simpa [blanked] using congrArg (fun e => e.body.item?) h
  members := by simpa [blanked] using congrArg (fun e => e.body.members) h
  values := by simpa [blanked] using congrArg (fun e => e.body.values) h
  fields := by
    have hfields := congrArg
      (fun e => e.body.fields.map fun p => (p.key, p.type, p.required)) h
    simpa [blanked, Body.fields_blanked, Function.comp_def, Field.blanked] using hfields

/-! ## Registries -/

namespace Registry

@[simp] theorem size_blanked (r : Registry) : r.blanked.entries.size = r.entries.size :=
  Array.size_map

@[simp] theorem refs_blanked (r : Registry) : r.blanked.refs = r.refs := rfl

@[simp] theorem anonymous_blanked (r : Registry) : r.blanked.anonymous = r.anonymous := rfl

theorem getElem?_blanked (r : Registry) (id : TypeId) :
    r.blanked.entries[id]? = r.entries[id]?.map Entry.blanked :=
  Array.getElem?_map

theorem push_blanked (r : Registry) (e : Entry) : (r.push e).blanked = r.blanked.push e.blanked := by
  simp [push, blanked]

theorem replace_blanked (r : Registry) (id : TypeId) (e : Entry) :
    (r.replace id e).blanked = r.blanked.replace id e.blanked := by
  simp [replace, blanked]

theorem entry_blanked (r : Registry) (id : TypeId) :
    r.blanked.entry id = (r.entry id).map Entry.blanked := by
  rw [entry, getElem?_blanked, entry]
  cases r.entries[id]? <;> rfl

theorem body?_blanked (r : Registry) (id : TypeId) :
    r.blanked.body? id = (r.body? id).map Body.blanked := by
  rw [body?, getElem?_blanked, body?]
  cases r.entries[id]? <;> rfl

theorem sameTypes_of_blanked (h : r.blanked = s.blanked) :
    List.Forall₂ Entry.SameType r.entries.toList s.entries.toList := by
  have hentries : r.entries.toList.map Entry.blanked = s.entries.toList.map Entry.blanked := by
    simpa [blanked] using congrArg (fun r => r.entries.toList) h
  have hblank : List.Forall₂ (· = ·) (r.entries.toList.map Entry.blanked)
      (s.entries.toList.map Entry.blanked) := List.forall₂_eq_eq_eq ▸ hentries
  rw [List.forall₂_map_left_iff, List.forall₂_map_right_iff] at hblank
  exact hblank.imp fun _ _ => Entry.sameType_of_blanked

/-! ## Written types -/

theorem typeTextWith_blanked (r : Registry) (qualifier : String) (view : View) (id : TypeId) :
    r.blanked.typeTextWith qualifier view id = r.typeTextWith qualifier view id := by
  induction id using Nat.strongRecOn generalizing view with
  | ind id ih =>
    rw [typeTextWith, entry_blanked, typeTextWith]
    cases r.entry id with
    | error fault => rfl
    | ok e =>
      simp only [Except.map, bind, Except.bind, Entry.blanked]
      cases e.name with
      | some name => rfl
      | none =>
        dsimp only
        rw [Body.typeText_blanked]
        refine Body.typeText_congr fun view child _ => ?_
        split
        · rename_i hlt
          exact ih child hlt view
        · rfl

private theorem mentionsModel_blanked (r : Registry) (id : TypeId) :
    r.blanked.mentionsModel id = r.mentionsModel id := by
  induction id using Nat.strongRecOn with
  | ind id ih =>
    rw [mentionsModel, getElem?_blanked, mentionsModel]
    cases r.entries[id]? with
    | none => rfl
    | some e =>
      simp only [Option.map_some, Entry.blanked, Body.children_blanked]
      congr 2
      funext child
      split
      · rename_i hlt
        exact ih child hlt
      · rfl

/-! ## Models -/

theorem bodyText_blanked (r : Registry) (b : Body) : r.blanked.bodyText b.blanked = r.bodyText b := by
  have hwritten : b.typeText (r.blanked.typeTextWith "") .owned =
      b.typeText (r.typeTextWith "") .owned :=
    Body.typeText_congr fun view child _ => r.typeTextWith_blanked "" view child
  have hmentions : r.blanked.mentionsModel = r.mentionsModel := funext r.mentionsModel_blanked
  rw [bodyText, Body.typeText_blanked, hwritten, Body.children_blanked, hmentions, bodyText]

private theorem forwardText_blanked (r : Registry) (id : TypeId) :
    r.blanked.forwardText id = r.forwardText id := by
  rw [forwardText, entry_blanked, forwardText]
  cases r.entry id with
  | error fault => rfl
  | ok e =>
    simp only [Except.map, bind, Except.bind, Entry.blanked, bodyText_blanked]

end Registry

theorem stripped_asBlank (v : Value) : (asBlank v).stripped = v.stripped.map fun _ => "" := by
  have hblank : Text.strip "" = "" := by decide
  rw [Value.stripped, orBlank_asBlank, Value.stripped]
  generalize v.orBlank = w
  cases htext : w.isText with
  | true =>
    obtain ⟨text, rfl⟩ := Value.exists_text_of_isText htext
    exact congrArg Except.ok hblank
  | false =>
    rw [asBlank_of_not_isText htext, Value.blanked, Value.asText_blankedIn]
    cases hw : w.asText with
    | error fault => rfl
    | ok text =>
      obtain rfl := asText_ok_iff.mp hw
      cases htext

def Model.undocumented (m : Model) : Model :=
  { m with
    docs := ""
    form := match m.form with
      | .record fields classSyntax =>
        .record (fields.map fun f => { f with description := "" }) classSyntax
      | form => form }

namespace Registry

private theorem modelField_blanked (r : Registry) (f : Field) :
    r.blanked.modelField f.blanked =
      (r.modelField f).map fun m => { m with description := "" } := by
  rw [modelField, Field.blanked, forwardText_blanked, modelField]
  refine bind_eq_map fun written => ?_
  rw [stripped_asBlank]
  exact bind_map fun _ _ => rfl

private theorem model?_blanked (r : Registry) (e : Entry) :
    r.blanked.model? e.blanked = (r.model? e).map (Option.map Model.undocumented) := by
  rw [model?, Entry.blanked, model?]
  cases e.name with
  | none => rfl
  | some name =>
    dsimp only
    rw [stripped_asBlank]
    refine bind_map fun docs _ => ?_
    have hsynonym : ∀ b : Body,
        (r.blanked.bodyText b.blanked >>= fun text =>
          pure (some (⟨name, "", .synonym text⟩ : Model))) =
        (r.bodyText b >>= fun text =>
          pure (some (⟨name, docs, .synonym text⟩ : Model))).map (Option.map Model.undocumented) := by
      intro b
      rw [bodyText_blanked]
      exact bind_eq_map fun _ => rfl
    cases e.body with
    | object fields =>
      have hfields : (fields.map Field.blanked).mapM r.blanked.modelField =
          (fields.mapM r.modelField).map (List.map fun m => { m with description := "" }) :=
        mapM_map fun f _ => r.modelField_blanked f
      have hkeys : (fields.map Field.blanked).map Field.key = fields.map Field.key := by
        simp [Field.blanked, Function.comp_def]
      simp only [Body.blanked, hfields, hkeys]
      exact bind_map fun written _ => bind_eq_map fun classSyntax => rfl
    | enumeration values => rfl
    | _ => exact hsynonym _

/-- The models of a registry with blank descriptions are its models without documentation. -/
theorem models_blanked (r : Registry) :
    r.blanked.models = r.models.map (List.map Model.undocumented) := by
  have hentries : r.blanked.entries.toList = r.entries.toList.map Entry.blanked := by
    simp [blanked]
  have hmodels : r.blanked.entries.toList.mapM r.blanked.model? =
      (r.entries.toList.mapM r.model?).map (List.map (Option.map Model.undocumented)) := by
    rw [hentries]
    exact mapM_map fun e _ => r.model?_blanked e
  rw [models, hmodels, models]
  refine bind_map fun found _ => congrArg Except.ok ?_
  rw [List.filterMap_map, List.map_filterMap]
  rfl

end Registry

end OpenApiClient.Schema

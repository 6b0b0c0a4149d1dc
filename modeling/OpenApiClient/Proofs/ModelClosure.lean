import OpenApiClient.Proofs.OperationRuns

/-! # The models module is closed

The types of operations are written while the registry still grows, and the models are defined in the
end. Every model that is written anywhere, in an operation or in the definition of another model, is
defined there, and once. -/
namespace OpenApiClient

open Schema Schema.RegistryM

variable {r : Registry} {qualifier name : String} {m : ClientMethod} {a : TypeExpr}

def ClientMethod.typeTexts (m : ClientMethod) : List String :=
  m.parameters.map Parameter.typeText ++ m.body.toList.map RequestBody.typeText ++ [m.responseText]

def ClientMethod.typeExprs (r : Registry) (qualifier : String) (m : ClientMethod) :
    List TypeExpr :=
  m.parameters.map (fun p => r.typeExpr .accepted p.type) ++
    m.body.toList.map (RequestBody.typeExpr r qualifier) ++ [responseExpr r m.response]

theorem ClientMethod.Written.typeTexts (h : m.Written r qualifier) :
    m.typeTexts = (m.typeExprs r qualifier).map (TypeExpr.text qualifier) := by
  have hparameters : m.parameters.map Parameter.typeText =
      m.parameters.map fun p => (r.typeExpr .accepted p.type).text qualifier :=
    List.map_congr_left fun p hp => (h.parameters p hp).2
  have hbody : m.body.toList.map RequestBody.typeText =
      m.body.toList.map fun b => (b.typeExpr r qualifier).text qualifier :=
    List.map_congr_left fun b hb => (h.body b (Option.mem_toList.mp hb)).text
  rw [ClientMethod.typeTexts, typeExprs, hparameters, hbody, h.responseText, List.map_append,
    List.map_append, List.map_map, List.map_map]
  rfl

/-- Every model that occurs in what is written of a method is a type of the registry. -/
theorem ClientMethod.mem_modelNames (ha : a ∈ m.typeExprs r qualifier) (hname : name ∈ a.models) :
    name ∈ r.modelNames := by
  simp only [typeExprs, List.mem_append, List.mem_map, List.mem_singleton] at ha
  rcases ha with (⟨p, -, rfl⟩ | ⟨b, -, rfl⟩) | rfl
  · exact Registry.mem_modelNames_of_mem_models hname
  · rw [RequestBody.typeExpr] at hname
    cases htype : b.type with
    | none => simp [htype, TypeExpr.models] at hname
    | some type =>
      simp only [htype] at hname
      split at hname
      · simp [TypeExpr.models] at hname
      · exact Registry.mem_modelNames_of_mem_models hname
  · rw [responseExpr] at hname
    cases htype : m.response with
    | none => simp [htype, TypeExpr.models] at hname
    | some type =>
      simp only [htype, Option.elim_some] at hname
      exact Registry.mem_modelNames_of_mem_models hname

private theorem Schema.Registry.Distinct.nodup_modelNames (h : r.Distinct) : r.modelNames.Nodup := by
  have hnodup := h.nodup
  rw [h.taken] at hnodup
  exact List.nodup_reverse.mp (List.nodup_append.mp hnodup).1

namespace Operation

/-- When the operations of a document are built, after whatever calls the registry has seen, the
models can be defined, if the registered descriptions and names of properties are texts. What the
operations and the definitions write of types is the text of expressions, and every model in one of
these is the name of exactly one definition. -/
theorem models_closed {document : Value} {settings : Settings} {calls : List Call}
    {built : List TagGroup} {r : Registry}
    (hbuilt : outcome (groups document settings) (Registry.history document calls) = (.ok built, r))
    (htexts : r.HasTexts) :
    ∃ models, r.models = .ok models ∧
      (∀ g ∈ built, ∀ m ∈ g.methods,
        m.typeTexts = (m.typeExprs r (Registry.qualifier settings.modelsModule)).map
          (TypeExpr.text (Registry.qualifier settings.modelsModule)) ∧
        ∀ a ∈ m.typeExprs r (Registry.qualifier settings.modelsModule), ∀ name ∈ a.models,
          (models.map Model.name).count name = 1) ∧
      ∀ model ∈ models, ∃ e ∈ r.entries.toList, e.name = some model.name ∧
        model.form.texts = (r.typeExprs e.body).map (TypeExpr.text "") ∧
        ∀ a ∈ r.typeExprs e.body, ∀ name ∈ a.models, (models.map Model.name).count name = 1 := by
  have hsteps := history_steps document calls
  obtain ⟨hgrows, hwritten⟩ :=
    groups_yields built r (hsteps.wellFormed Registry.wellFormed_empty) hbuilt
  have hdistinct : r.Distinct :=
    hgrows.steps.distinct (hsteps.distinct Registry.distinct_empty)
  obtain ⟨models, hmodels, hnames, hforms⟩ := hgrows.wellFormed.models_typeExprs htexts
  have honce : ∀ name ∈ r.modelNames, (models.map Model.name).count name = 1 := by
    rw [hnames]
    exact fun name hname => List.count_eq_one_of_mem hdistinct.nodup_modelNames hname
  refine ⟨models, hmodels, fun g hg m hm => ⟨(hwritten g hg m hm).typeTexts, ?_⟩, ?_⟩
  · exact fun a ha name hname => honce name (ClientMethod.mem_modelNames ha hname)
  · intro model hmodel
    obtain ⟨e, he, hname, htexts⟩ := hforms model hmodel
    exact ⟨e, he, hname, htexts, fun a ha name hname =>
      honce name (Registry.mem_modelNames_of_mem_typeExprs ha hname)⟩

/-- A document of one operation, which answers with a record of one property under a key. The
property is declared by a pair. -/
def listingDocument (key : Scalar) : Value :=
  let properties : Value :=
    .sequence [.sequence [.scalar key, .mapping [(.text "type", .text "string")]]]
  let record : Value := .mapping [(.text "allOf", .sequence
    [.mapping [(.text "properties", properties)], .mapping [(.text "type", .text "object")]])]
  let response : Value := .mapping [(.text "content", .mapping [(.text "application/json", .mapping
    [(.text "schema", .mapping [(.text "$ref", .text "#/components/schemas/A")])])])]
  let operation : Value := .mapping [(.text "operationId", .text "list-a"),
    (.text "tags", .sequence [.text "a"]), (.text "responses", .mapping [(.text "200", response)])]
  .mapping [(.text "components", .mapping [(.text "schemas", .mapping [(.text "A", record)])]),
    (.text "paths", .mapping [(.text "/a", .mapping [(.text "get", operation)])])]

def listingRun (key : Scalar) : Except Fault (List TagGroup) × Registry :=
  outcome (groups (listingDocument key) .default) (Registry.history (listingDocument key) [])

def listingEntries (key : Scalar) : Array Entry :=
  #[{ body := .synonym 1, name := some "ListAResponse" },
    { body := .object [⟨key, 2, false, .text ""⟩], name := some "A" },
    { body := .primitive .string }]

theorem models_closed_listing : ∃ built models,
    (listingRun (.text "x")).1 = .ok built ∧ (listingRun (.text "x")).2.HasTexts ∧
      (listingRun (.text "x")).2.models = .ok models ∧
      models.map Model.name = ["ListAResponse", "A"] ∧
      ∀ g ∈ built, ∀ m ∈ g.methods, ∀ a ∈ m.typeExprs (listingRun (.text "x")).2 "models.",
        ∀ name ∈ a.models, (models.map Model.name).count name = 1 := by
  obtain ⟨hok, hentries, hnames⟩ : (listingRun (.text "x")).1.isOk ∧
      (listingRun (.text "x")).2.entries = listingEntries (.text "x") ∧
      (listingRun (.text "x")).2.models.map (List.map Model.name) = .ok ["ListAResponse", "A"] := by
    decide +kernel
  have hqualifier : Registry.qualifier Settings.default.modelsModule = "models." := by
    decide
  have hmem : ∀ e ∈ (listingRun (.text "x")).2.entries.toList,
      e ∈ (listingEntries (.text "x")).toList :=
    fun e he => hentries ▸ he
  have htexts : (listingRun (.text "x")).2.HasTexts := by
    constructor
    all_goals
      intro e he
      have he := hmem e he
      simp only [listingEntries, List.mem_cons, List.not_mem_nil, or_false] at he
      rcases he with rfl | rfl | rfl <;> simp [Body.fields]
  cases hrun : listingRun (.text "x") with
  | mk x r =>
    rw [hrun] at htexts hnames hok
    cases x with
    | error fault => cases hok
    | ok built =>
      obtain ⟨models, hmodels, hmethods, -⟩ := models_closed hrun htexts
      refine ⟨built, models, rfl, htexts, hmodels, ?_, fun g hg m hm => ?_⟩
      · exact Except.ok.inj (hmodels ▸ hnames)
      · rw [hqualifier] at hmethods
        exact (hmethods g hg m hm).2

/-- A number is no name of a property, and the record that has one is not defined. -/
theorem not_models_closed : ¬ ∀ (document : Value) (settings : Settings) (calls : List Call)
    (built : List TagGroup) (r : Registry),
    outcome (groups document settings) (Registry.history document calls) = (.ok built, r) →
    (∀ e ∈ r.entries.toList, (∃ s, e.description = .text s) ∧
      ∀ f ∈ e.body.fields, ∃ s, f.description = .text s) →
    ∃ models, r.models = .ok models ∧ ∀ g ∈ built, ∀ m ∈ g.methods,
      ∀ a ∈ m.typeExprs r (Registry.qualifier settings.modelsModule), ∀ name ∈ a.models,
        (models.map Model.name).count name = 1 := by
  intro h
  obtain ⟨hok, hentries, hmodels⟩ : (listingRun (.int 1)).1.isOk ∧
      (listingRun (.int 1)).2.entries = listingEntries (.int 1) ∧
      (listingRun (.int 1)).2.models = .error .wrongType := by
    decide +kernel
  cases hrun : listingRun (.int 1) with
  | mk x r =>
    rw [hrun] at hentries hmodels hok
    cases x with
    | error fault => cases hok
    | ok built =>
      obtain ⟨models, hfound, -⟩ := h _ _ _ built r hrun (by
        intro e he
        rw [show r.entries = _ from hentries] at he
        simp only [listingEntries, List.mem_cons, List.not_mem_nil, or_false] at he
        rcases he with rfl | rfl | rfl <;> simp [Body.fields])
      cases hfound.symm.trans hmodels

end Operation

end OpenApiClient

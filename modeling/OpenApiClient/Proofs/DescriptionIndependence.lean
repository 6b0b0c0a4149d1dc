import OpenApiClient.Proofs.BlankRegistries
import OpenApiClient.Proofs.FreeResolution

/-! # Descriptions do not influence types

A run on schemas with blank descriptions goes through the registries of the run on the schemas, with
their descriptions blank. It follows that documents and schemas which differ in descriptions alone
have the same types. -/
namespace OpenApiClient.Schema

open RegistryM

variable {α β γ δ : Type} {document schema : Value} {hint : String} {P : Value → Prop} {fuel : Nat}
  {r : Registry}

/-! ## Steps with blank descriptions -/

/-- Whether a step from a registry with blank descriptions ends as another does from the registry:
with what its answer is mapped to, and with what it leaves, with blank descriptions. -/
def Blanks (h : α → β) (m : RegistryM α) (m' : RegistryM β) (r : Registry) : Prop :=
  outcome m' r.blanked = ((outcome m r).1.map h, (outcome m r).2.blanked)

namespace Blanks

theorem pure {h : α → β} (a : α) : Blanks h (pure a) (pure (h a)) r := rfl

private theorem lift {h : α → β} {x : Except Fault α} {y : Except Fault β} (hxy : y = x.map h) :
    Blanks h (liftM x) (liftM y) r := by
  rw [Blanks, outcome_lift, outcome_lift, hxy]

private theorem throw {h : α → β} (fault : Fault) : Blanks h (throw fault) (throw fault) r := rfl

theorem bind {h : α → β} {k : γ → δ} {m : RegistryM α} {m' : RegistryM β} {f : α → RegistryM γ}
    {f' : β → RegistryM δ} (hm : Blanks h m m' r)
    (hf : ∀ a s, outcome m r = (.ok a, s) → Blanks k (f a) (f' (h a)) s) :
    Blanks k (m >>= f) (m' >>= f') r := by
  rw [Blanks, outcome_bind, outcome_bind, hm]
  rcases houtcome : outcome m r with ⟨fault | a, s⟩
  · rfl
  · exact hf a s houtcome

/-- A look that gives in the one step what it gives in the other, mapped. -/
theorem bind_lift {h : α → β} {k : γ → δ} {x : Except Fault α} {y : Except Fault β}
    {f : α → RegistryM γ} {f' : β → RegistryM δ} (hxy : y = x.map h)
    (hf : ∀ a, x = .ok a → Blanks k (f a) (f' (h a)) r) :
    Blanks k ((liftM x : RegistryM α) >>= f) ((liftM y : RegistryM β) >>= f') r := by
  refine (lift hxy).bind fun a s ha => ?_
  obtain ⟨rfl, rfl⟩ := Prod.mk.inj ha
  exact hf a rfl

theorem bind_look {k : γ → δ} {x y : Except Fault α} {f : α → RegistryM γ}
    {f' : α → RegistryM δ} (hxy : y = x) (hf : ∀ a, x = .ok a → Blanks k (f a) (f' a) r) :
    Blanks k ((liftM x : RegistryM α) >>= f) ((liftM y : RegistryM α) >>= f') r :=
  bind_lift (h := id) (by rw [hxy]; cases x <;> rfl) hf

theorem bind_get {k : γ → δ} {f : Registry → RegistryM γ} {f' : Registry → RegistryM δ}
    (hf : Blanks k (f r) (f' r.blanked) r) : Blanks k (get >>= f) (get >>= f') r := by
  rw [Blanks, outcome_bind, outcome_bind]
  exact hf

theorem modify {f f' : Registry → Registry} (hf : f' r.blanked = (f r).blanked) :
    Blanks id (modify f) (modify f') r := by
  rw [Blanks, outcome_modify, outcome_modify, hf]
  rfl

private theorem mapM {f : α → RegistryM γ} {f' : β → RegistryM γ} {h : α → β} {xs : List α}
    (hf : ∀ x ∈ xs, ∀ r, Blanks id (f x) (f' (h x)) r) (r : Registry) :
    Blanks id (xs.mapM f) ((xs.map h).mapM f') r := by
  induction xs generalizing r with
  | nil => rfl
  | cons x rest ih =>
    obtain ⟨hx, hrest⟩ := List.forall_mem_cons.mp hf
    rw [List.map_cons, List.mapM_cons, List.mapM_cons]
    exact (hx r).bind fun y s _ => (ih hrest s).bind fun ys t _ => .pure (y :: ys)

theorem append (e : Entry) : Blanks id (append e) (append e.blanked) r := by
  rw [Blanks, outcome_append, outcome_append, Registry.size_blanked, Registry.push_blanked]
  rfl

theorem claim (name : String) : Blanks id (claim name) (claim name) r := rfl

theorem remember (key : String) (i : TypeId) : Blanks id (remember key i) (remember key i) r := rfl

theorem settled (key : String) (e : Entry) (r : Registry) :
    Blanks id (Schema.append e >>= fun i => Schema.remember key i >>= fun _ => Pure.pure i)
      (Schema.append e.blanked >>= fun i => Schema.remember key i >>= fun _ => Pure.pure i) r :=
  (append e).bind fun i _ _ => (remember key i).bind fun _ _ _ => .pure i

private theorem rememberRef (reference : String) (i : TypeId) :
    Blanks id (rememberRef reference i) (rememberRef reference i) r := rfl

private theorem logRecord (level : LogLevel) (source : LogSource) (message : String) :
    Blanks id (logRecord level source message) (logRecord level source message) r := rfl

private theorem complete (i : TypeId) (e : Entry) : Blanks id (complete i e) (complete i e.blanked) r :=
  modify (r.replace_blanked i e).symm

theorem register (name : String) {note : TypeId → RegistryM Unit} {m m' : RegistryM Entry}
    (hnote : ∀ i r, Blanks id (note i) (note i) r) (hm : ∀ r, Blanks Entry.blanked m m' r) :
    Blanks id (register name note m) (register name note m') r := by
  refine (append _).bind fun i s _ => (hnote i s).bind fun _ t _ => (hm t).bind fun e u _ => ?_
  exact (complete i _).bind fun _ _ _ => .pure i

end Blanks

/-! ## Resolutions with blank descriptions -/

private theorem structuralKey_blanked (v : Value) : structuralKey v.blanked = structuralKey v := by
  rw [structuralKey, shape, Value.blanked, shapeIn_blankedIn, structuralKey, shape]

theorem orEmpty_blanked (v : Value) : v.blanked.orEmpty = v.orEmpty.blanked :=
  Value.orEmpty_blankedIn false v

private theorem modelName_blanked (v : Value) (hint : String) (b : Body) :
    modelName v.blanked hint b.blanked = modelName v hint b := by
  unfold modelName
  rw [get_blanked_of_ne v "title" (by decide) (by decide)]
  cases v.get "title" with
  | error fault => rfl
  | ok title =>
    have htruthy : title.blanked.isTruthy = title.isTruthy := Value.isTruthy_blankedIn false title
    have htext : title.blanked.asText = title.asText := Value.asText_blankedIn false title
    simp only [Except.map, bind, Except.bind, htruthy, htext]
    cases b <;> rfl

private theorem settle_blanks (v : Value) (hint key : String) (e : Entry) (r : Registry) :
    Blanks id (settle v hint key e) (settle v.blanked hint key e.blanked) r := by
  have hneeds : e.blanked.body.needsName = e.body.needsName := e.body.needsName_blanked
  rw [settle, settle, hneeds]
  split
  · refine .bind_look (modelName_blanked v hint e.body) fun name _ => ?_
    exact (Blanks.claim name).bind fun free s _ => Blanks.settled key { e with name := some free } s
  · exact Blanks.settled key e r

def BlanksAll (P : Value → Prop) (f f' : Resolver) : Prop :=
  ∀ v, P v → ∀ hint r, Blanks id (f v hint) (f' v.blanked hint) r

private theorem resolvePart_blanks {f f' : Resolver} {p : Part}
    (hf : ∀ r, Blanks id (f p.schema p.hint) (f' p.schema.blanked p.hint) r) (r : Registry) :
    Blanks id (resolvePart f p) (resolvePart f' p.blanked) r := by
  refine (hf r).bind fun i s _ => ?_
  rw [Part.blanked, orEmpty_blanked]
  dsimp only
  split
  · exact .bind_lift (p.schema.orEmpty.get_blanked "description") fun _ _ => .pure i
  · exact .pure i

theorem describe_blanks (hP : Refers document P) {f f' : Resolver} (hf : BlanksAll P f f')
    (h : P schema) (hint : String) (r : Registry) :
    Blanks Entry.blanked (describe document f schema hint)
      (describe document.blankedDocument f' schema.blanked hint) r := by
  refine .bind_lift (schema.get_blanked "description") fun description _ => ?_
  refine .bind_lift (layer_blanked hP h hint) fun outer houter => ?_
  have hparts := hP.toPartClosed.part h houter
  refine (Blanks.mapM (fun p hp => resolvePart_blanks (hf _ (hparts p hp) p.hint)) r).bind
    fun ids s _ => ?_
  have horBlank : (description.blankedMember false (.text "description")).orBlank =
      asBlank description.orBlank := orBlank_asBlank description
  rw [Layer.blanked, Frame.fill_blanked, horBlank]
  exact .pure _

private theorem resolveRef_blanks (hP : Refers document P) {f f' : Resolver} (hf : BlanksAll P f f')
    {reference : Value} (hnames : ∀ text, reference = .text text → NamesSchema text) (r : Registry) :
    Blanks id (resolveRef document f reference)
      (resolveRef document.blankedDocument f' reference.blanked) r := by
  refine .bind_look (Value.asText_blankedIn false reference) fun text htext => .bind_get ?_
  have hlookup := lookup_blankedDocument (hnames text (asText_ok_iff.mp htext)) document
  rw [Registry.refs_blanked]
  cases r.refs.lookup text with
  | some i => exact .pure i
  | none =>
    refine .bind_lift hlookup fun target htarget => (Blanks.claim _).bind fun name s _ => ?_
    have htype : Blanks id (register name (rememberRef text) (describe document f target name))
        (register name (rememberRef text)
          (describe document.blankedDocument f' target.blanked name)) s :=
      .register name (fun i r => .rememberRef text i) fun r =>
        describe_blanks hP hf (hP.lookup htarget) name r
    exact htype.bind fun i t _ => (Blanks.logRecord _ _ _).bind fun _ _ _ => .pure i

private theorem resolveFreely_blanks (hP : Refers document P) :
    BlanksAll P (resolveFreely document fuel) (resolveFreely document.blankedDocument fuel) := by
  induction fuel with
  | zero => exact fun v _ hint r => .throw _
  | succ fuel ih =>
    intro v h hint r
    rw [resolveFreely, resolveFreely]
    dsimp only
    rw [orEmpty_blanked]
    have hv := hP.toPartClosed.orEmpty h
    refine .bind_look (isReference_blanked v.orEmpty) fun isRef hisRef => ?_
    split
    · refine .bind_lift (require_blanked_of_ne _ "$ref" (by decide) (by decide))
        fun reference hreference => ?_
      exact resolveRef_blanks hP ih (fun text htext => hP.names hv (htext ▸ hreference)) r
    · refine .bind_look (structuralKey_blanked v.orEmpty) fun key _ => .bind_get ?_
      rw [Registry.anonymous_blanked]
      cases r.anonymous.lookup key with
      | some i => exact .pure i
      | none =>
        exact (describe_blanks hP ih hv hint r).bind fun e s _ => settle_blanks v.orEmpty hint key e s

private theorem optional_blanks (inner : TypeId) (r : Registry) :
    Blanks id (optional inner) (optional inner) r := by
  have hnew : Blanks id (append { body := .optional inner } >>= fun i =>
        remember (optionalKey inner) i >>= fun _ => pure i)
      (append { body := .optional inner } >>= fun i =>
        remember (optionalKey inner) i >>= fun _ => pure i) r :=
    Blanks.settled (optionalKey inner) { body := .optional inner } r
  rw [optional]
  refine .bind_get ?_
  rw [Registry.body?_blanked, Registry.anonymous_blanked]
  cases r.anonymous.lookup (optionalKey inner) with
  | some i =>
    rcases r.body? inner with _ | b
    · exact .pure i
    · cases b <;> exact .pure _
  | none =>
    rcases r.body? inner with _ | b
    · exact hnew
    · cases b with
      | optional item => exact .pure inner
      | _ => exact hnew

private theorem resolve_blanks (hP : Refers document P) (h : P schema) (preferred : Option String)
    (nullable : Bool) (hint : String) (r : Registry) :
    Blanks id (resolve document preferred schema nullable hint)
      (resolve document.blankedDocument preferred schema.blanked nullable hint) r := by
  have hv := hP.toPartClosed.orEmpty h
  have hdepth : resolveDepth document.blankedDocument schema.orEmpty.blanked =
      resolveDepth document schema.orEmpty := by
    rw [resolveDepth, Value.weight_blankedDocument, Value.blanked, Value.weight_blankedIn,
      resolveDepth]
  have hresolver : BlanksAll P (resolveWith document (resolveDepth document schema.orEmpty) [])
      (resolveWith document.blankedDocument
        (resolveDepth document.blankedDocument schema.orEmpty.blanked) []) := by
    rw [hdepth, resolveWith_nil_eq_freely, resolveWith_nil_eq_freely]
    exact resolveFreely_blanks hP
  have hwrap : ∀ i s, Blanks id (wrap nullable i) (wrap nullable i) s := by
    intro i s
    cases nullable with
    | false => exact .pure i
    | true => exact optional_blanks i s
  by_cases hpreferred : preferred.getD "" = ""
  · rw [resolve_anonymous document hpreferred, resolve_anonymous document.blankedDocument hpreferred,
      orEmpty_blanked]
    exact (hresolver _ hv hint r).bind fun i s _ => hwrap i s
  · obtain ⟨text, rfl⟩ : ∃ text, preferred = some text :=
      Option.ne_none_iff_exists'.mp fun hnone => hpreferred (by rw [hnone]; rfl)
    have htext : text ≠ "" := hpreferred
    rw [resolve_named document htext, resolve_named document.blankedDocument htext, orEmpty_blanked]
    refine (Blanks.claim text).bind (fun name s _ => ?_) |>.bind fun i s _ => hwrap i s
    exact .register name (fun _ _ => .pure ()) fun r => describe_blanks hP hresolver hv name r

/-! ## Histories with blank descriptions -/

/-- Whether all references in a value name schemas of the document. -/
def NamesSchemas (v : Value) : Prop :=
  ∀ reference, .text reference ∈ v.held "$ref" → NamesSchema reference

theorem refers_of_namesSchemas (hdocument : NamesSchemas document) (hschema : NamesSchemas schema) :
    Refers document fun v => v.held "$ref" ⊆ document.held "$ref" ++ schema.held "$ref" where
  toPartClosed := partClosed_held (by decide) (by decide) (by decide) (List.subset_append_left _ _)
  names := by
    intro v reference hv hreference
    obtain ⟨ms, rfl, hget⟩ := require_ok_iff.mp hreference
    rcases List.mem_append.mp (hv (Value.mem_held_mapping.mpr (.inl hget))) with hheld | hheld
    · exact hdocument reference hheld
    · exact hschema reference hheld

def Call.blanked (call : Call) : Call := { call with schema := call.schema.blanked }

private theorem Call.run_blanks (hdocument : NamesSchemas document) (call : Call)
    (hcall : NamesSchemas call.schema) (r : Registry) :
    Blanks id (call.run document) (call.blanked.run document.blankedDocument) r :=
  resolve_blanks (refers_of_namesSchemas hdocument hcall) (List.subset_append_right _ _)
    call.preferred call.nullable call.hint r

namespace Registry

/-- The answers of calls that are made one after another. -/
def answers (document : Value) (r : Registry) : List Call → List (Except Fault TypeId)
  | [] => []
  | call :: calls =>
    (outcome (call.run document) r).1 :: answers document (r.afterCall document call) calls

/-- Calls with blank descriptions have the answers of the calls, and leave the registry that these
leave, with blank descriptions. -/
theorem afterCalls_blanked (hdocument : NamesSchemas document) {calls : List Call}
    (hcalls : ∀ call ∈ calls, NamesSchemas call.schema) (r : Registry) :
    r.blanked.answers document.blankedDocument (calls.map Call.blanked) = r.answers document calls ∧
      r.blanked.afterCalls document.blankedDocument (calls.map Call.blanked) =
        (r.afterCalls document calls).blanked := by
  induction calls generalizing r with
  | nil => exact ⟨rfl, rfl⟩
  | cons call calls ih =>
    obtain ⟨hcall, hcalls⟩ := List.forall_mem_cons.mp hcalls
    have hrun : outcome (call.blanked.run document.blankedDocument) r.blanked =
        ((outcome (call.run document) r).1.map id, (outcome (call.run document) r).2.blanked) :=
      call.run_blanks hdocument hcall r
    have hleft : r.blanked.afterCall document.blankedDocument call.blanked =
        (r.afterCall document call).blanked := congrArg Prod.snd hrun
    obtain ⟨hanswers, hafter⟩ := ih hcalls (r.afterCall document call)
    refine ⟨?_, ?_⟩
    · rw [List.map_cons, answers, hrun, hleft, hanswers, Except.map_id]
      rfl
    · rw [List.map_cons, afterCalls, List.foldl_cons, hleft]
      exact hafter

end Registry

/-- Two documents and two lists of calls that differ in descriptions alone, and whose references
name schemas of the document, have the same types: the same calls succeed, with the same ids, and the
types differ in their descriptions alone. They are written alike, and their models differ in
documentation alone. -/
theorem types_independent_of_descriptions {document' : Value} {calls calls' : List Call}
    (hdocuments : document.blankedDocument = document'.blankedDocument)
    (hcalls : calls.map Call.blanked = calls'.map Call.blanked)
    (hnames : NamesSchemas document ∧ ∀ call ∈ calls, NamesSchemas call.schema)
    (hnames' : NamesSchemas document' ∧ ∀ call ∈ calls', NamesSchemas call.schema) :
    let r := Registry.history document calls
    let s := Registry.history document' calls'
    Registry.answers document {} calls = Registry.answers document' {} calls' ∧
      List.Forall₂ Entry.SameType r.entries.toList s.entries.toList ∧
      (∀ modelsModule view id, r.typeText modelsModule view id = s.typeText modelsModule view id) ∧
      r.models.map (List.map Model.undocumented) = s.models.map (List.map Model.undocumented) := by
  intro r s
  obtain ⟨hanswers, hleft⟩ := Registry.afterCalls_blanked hnames.1 hnames.2 {}
  obtain ⟨hanswers', hleft'⟩ := Registry.afterCalls_blanked hnames'.1 hnames'.2 {}
  rw [hdocuments, hcalls] at hanswers hleft
  have hblank : r.blanked = s.blanked := hleft.symm.trans hleft'
  refine ⟨hanswers.symm.trans hanswers', Registry.sameTypes_of_blanked hblank,
    fun modelsModule view id => ?_, ?_⟩
  · rw [Registry.typeText, ← Registry.typeTextWith_blanked, hblank, Registry.typeTextWith_blanked,
      Registry.typeText]
  · rw [← Registry.models_blanked, hblank, Registry.models_blanked]

/-- A document of pets, where a pet has a name and a property that is called description. -/
def petDocument (pet name : String) : Value :=
  .mapping [(.text "components", .mapping [(.text "schemas", .mapping [(.text "Pet", .mapping [
    (.text "description", .text pet),
    (.text "properties", .mapping [
      (.text "name", .mapping [(.text "type", .text "string"), (.text "description", .text name)]),
      (.text "description", .mapping [(.text "type", .text "integer")])])])])])]

def petCalls (pets : String) : List Call :=
  [⟨none, refTo "#/components/schemas/Pet", false, ""⟩,
    ⟨none, .mapping [(.text "type", .text "array"), (.text "description", .text pets),
      (.text "items", refTo "#/components/schemas/Pet")], true, "pets"⟩]

/-- The models of pets differ in documentation alone. -/
theorem types_independent_of_descriptions_pets :
    let r := Registry.history (petDocument "A pet." "Its name.") (petCalls "All pets.")
    let s := Registry.history (petDocument "An animal." "") (petCalls "")
    Registry.answers (petDocument "A pet." "Its name.") {} (petCalls "All pets.") =
        Registry.answers (petDocument "An animal." "") {} (petCalls "") ∧
      Registry.answers (petDocument "An animal." "") {} (petCalls "") = [.ok 0, .ok 4] ∧
      r.models ≠ s.models ∧
      r.models.map (List.map Model.undocumented) = s.models.map (List.map Model.undocumented) := by
  have hdocument : ∀ pet name, NamesSchemas (petDocument pet name) := by
    intro pet name reference h
    simp [petDocument, Value.mem_held_mapping, Members.get?_cons] at h
  have hcalls : ∀ pets, ∀ call ∈ petCalls pets, NamesSchemas call.schema := by
    intro pets call hcall reference h
    obtain rfl : "#/components/schemas/Pet" = reference := by
      rcases List.mem_pair.mp hcall with rfl | rfl
      · simpa [refTo, Value.mem_held_mapping, Members.get?_cons] using h
      · simpa [refTo, Value.mem_held_mapping, Members.get?_cons] using h
    exact ⟨"Pet", by decide, rfl⟩
  have hdocuments : (petDocument "A pet." "Its name.").blankedDocument =
      (petDocument "An animal." "").blankedDocument := rfl
  have hschemas : (petCalls "All pets.").map Call.blanked = (petCalls "").map Call.blanked := rfl
  obtain ⟨hanswers, -, -, hmodels⟩ := types_independent_of_descriptions hdocuments hschemas
    ⟨hdocument _ _, hcalls _⟩ ⟨hdocument _ _, hcalls _⟩
  exact ⟨hanswers, by decide, by decide, hmodels⟩

end OpenApiClient.Schema

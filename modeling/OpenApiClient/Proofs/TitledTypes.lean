import OpenApiClient.Proofs.KeptTitles
import OpenApiClient.Proofs.RememberedTypes

/-! # Types that are told apart by their titles

Each type is remembered under one key, and one that needs a name has it from a schema of that key.
The title of a schema that names a model stays in the key, so schemas with different titles get
different types, and each type the name of its own title. -/
namespace OpenApiClient.Schema

open RegistryM Registry Naming

variable {document : Value} {calls : List Call} {r s : Registry} {key title : String}
  {id : TypeId} {e : Entry}

namespace Registry

/-- Whether a type was settled for a schema of a key, under the name of the schema if it needs
one. -/
structure SettledFor (key : String) (e : Entry) (schema : Value) (hint : String) : Prop where
  key : IsKeyOf key schema e
  named : e.body.needsName → ∃ text n, modelName schema hint e.body = .ok text ∧
    e.name = some (numbered (className text) "" n)
  done : e.name = none ∨ e.body.needsName

structure Keyed (r : Registry) : Prop where
  nodup : (r.anonymous.map Prod.snd).Nodup
  settled {key : String} {id : TypeId} : (key, id) ∈ r.anonymous →
    ∃ e schema hint, r.entries[id]? = some e ∧ SettledFor key e schema hint

theorem keyed_empty : ({} : Registry).Keyed where
  nodup := List.nodup_nil
  settled h := by simp at h

/-- Types may be registered and filled in as long as those that were settled stay. -/
theorem Keyed.of_anonymous_eq (h : r.Keyed) (hanonymous : s.anonymous = r.anonymous)
    (hentries : ∀ {id : TypeId} {e : Entry}, r.entries[id]? = some e →
      e.name = none ∨ e.body.needsName → s.entries[id]? = some e) : s.Keyed where
  nodup := hanonymous ▸ h.nodup
  settled hmem := by
    obtain ⟨e, schema, hint, he, hsettled⟩ := h.settled (hanonymous ▸ hmem)
    exact ⟨e, schema, hint, hentries he hsettled.done, hsettled⟩

theorem getElem?_of_push {e other : Entry} (hentries : s.entries = r.entries.push e)
    (hother : r.entries[id]? = some other) : s.entries[id]? = some other := by
  have hid : id < r.entries.size := (Array.getElem?_eq_some_iff.mp hother).1
  rw [hentries, Array.getElem?_push_lt hid, ← hother, Array.getElem?_eq_getElem hid]

theorem Keyed.settle (h : r.Keyed) (hr : r.WellFormed) {schema : Value} {hint : String}
    (hsettled : SettledFor key e schema hint) (hentries : s.entries = r.entries.push e)
    (hanonymous : s.anonymous = (key, r.entries.size) :: r.anonymous) : s.Keyed where
  nodup := by
    rw [hanonymous]
    refine List.nodup_cons.mpr ⟨fun hmem => ?_, h.nodup⟩
    obtain ⟨⟨_, id⟩, hid, rfl⟩ := List.mem_map.mp hmem
    exact Nat.lt_irrefl _ (hr.anonymous hid)
  settled := by
    intro other id hmem
    rcases List.mem_cons.mp (hanonymous ▸ hmem) with heq | hmem
    · obtain ⟨rfl, rfl⟩ := Prod.mk.inj heq
      exact ⟨e, schema, hint, by rw [hentries, Array.getElem?_push_size], hsettled⟩
    · obtain ⟨old, schema, hint, hold, hother⟩ := h.settled hmem
      exact ⟨old, schema, hint, getElem?_of_push hentries hold, hother⟩

theorem Step.keyed (h : r.Step s) (hr : r.WellFormed) (hkeyed : r.Keyed) : s.Keyed := by
  cases h with
  | named text => exact hkeyed.of_anonymous_eq rfl fun he _ => getElem?_of_push rfl he
  | opened reference hnew => exact hkeyed.of_anonymous_eq rfl fun he _ => getElem?_of_push rfl he
  | @filled id name e hplace hids =>
    refine hkeyed.of_anonymous_eq rfl fun {other old} hold hdone => ?_
    -- The type that is filled in was registered by name alone, and so was not settled.
    have hne : id ≠ other := by
      rintro rfl
      obtain rfl := Option.some.inj (hplace.symm.trans hold)
      exact hdone.elim (by simp [placeholder]) (by simp [placeholder, Body.needsName])
    rw [Registry.replace, Array.getElem?_setIfInBounds, if_neg hne, hold]
  | @settled schema hint key e _ h hkey hname hids =>
    cases h with
    | unnamed hneeds =>
      have hsettled : SettledFor key e schema hint := ⟨hkey, by simp [hneeds], .inl hname⟩
      exact hkeyed.settle hr hsettled rfl rfl
    | named text hneeds htext =>
      obtain ⟨n, hn, -⟩ := freeName_eq_numbered r.names (className text) ""
      have hsettled : SettledFor key { e with name := some (r.nameFor text) } schema hint :=
        ⟨hkey, fun _ => ⟨text, n, htext, congrArg some hn⟩, .inr hneeds⟩
      exact hkeyed.settle hr hsettled rfl rfl
  | logged record => exact hkeyed.of_anonymous_eq rfl fun he _ => he

theorem Steps.keyed (h : r.Steps s) (hr : r.WellFormed) (hkeyed : r.Keyed) : s.Keyed := by
  induction h with
  | refl => exact hkeyed
  | tail hsteps hstep ih => exact hstep.keyed (Steps.wellFormed hsteps hr) ih

/-- A type is remembered under one key. -/
theorem Keyed.key_unique (h : r.Keyed) {other : String} (hkey : (key, id) ∈ r.anonymous)
    (hother : (other, id) ∈ r.anonymous) : key = other :=
  congrArg Prod.fst (List.inj_on_of_nodup_map h.nodup hkey hother rfl)

end Registry

theorem history_keyed (document : Value) (calls : List Call) : (history document calls).Keyed :=
  (history_steps document calls).keyed wellFormed_empty keyed_empty

variable {outer : List Task} {a b : Task} {ms ns : Members} {body : Body} {other : String}
  {i j : TypeId}

/-- A shape is remembered at the end of a run for the type that any resolution of it gave. -/
theorem Task.InRun.mem_anonymous (h : a.InRun document calls outer) (hkey : a.IsShape key)
    (hi : (a.resolved document).1 = .ok i) : (key, i) ∈ (history document calls).anonymous := by
  refine h.kept (P := fun s => (key, i) ∈ s.anonymous)
    (fun hgrown hs => hgrown.anonymous.subset hs)
    (fun _ _ h => h) (fun _ _ s t hcloses hs => ?_)
    (mem_of_lookup (hkey.remembered (Prod.ext hi rfl)))
  rcases hcloses.2 with heq | ⟨_, _, -, heq⟩
  · exact heq ▸ hs
  · exact heq ▸ List.mem_cons_of_mem _ hs

private theorem Task.exists_isShape {v : Value} (hschema : a.schema.orEmpty = v)
    (hisRef : isReference v = .ok false) (hi : (a.resolved document).1 = .ok i) :
    ∃ key, a.IsShape key ∧ structuralKey v = .ok key := by
  obtain ⟨fuel, active, schema, hint, r⟩ := a
  subst hschema
  cases fuel with
  | zero => simp [Task.resolved, resolveWith] at hi
  | succ fuel =>
    rcases resolveWith_ok (Prod.ext hi rfl) with ⟨_, htrue, -⟩ | ⟨-, key, hkey, -⟩
    · simp [hisRef] at htrue
    · exact ⟨key, ⟨hisRef, hkey⟩, hkey⟩

/-- Whether the type with an id is a model of a title. -/
def Registry.IsModelOf (r : Registry) (title : String) (id : TypeId) : Prop :=
  ∃ e n, r.entries[id]? = some e ∧ e.name = some (numbered (className title) "" n)

/-- Whether the title of a schema whose type needs a name is in its key: it shows that it names a
model, or it does not extend others. -/
def KeepsTitle (ms : Members) : Prop := namesModel ms ∨ Members.has ms "allOf" = false

/-- The schema that a type with a name was settled for names a model, or the schemas with its key
extend others. -/
theorem Registry.Keyed.settledFor (h : r.Keyed) (hmem : (key, id) ∈ r.anonymous)
    (he : r.entries[id]? = some e) (hneeds : e.body.needsName) : ∃ schema hint,
      SettledFor key e schema hint ∧ structuralKey schema = .ok key ∧ ShowsName schema := by
  obtain ⟨_, schema, hint, hentry, hsettled⟩ := h.settled hmem
  obtain rfl := Option.some.inj (he.symm.trans hentry)
  rcases hsettled.key with ⟨hkey, hshows⟩ | ⟨inner, -, hbody⟩
  · exact ⟨schema, hint, hsettled, hkey, hshows hneeds⟩
  · simp [hbody, Body.needsName] at hneeds

theorem Registry.Keyed.showsModel (h : r.Keyed) (hmem : (key, id) ∈ r.anonymous)
    (hkey : structuralKey (.mapping ms) = .ok key) (hkeeps : KeepsTitle ms)
    (he : r.entries[id]? = some e) (hneeds : e.body.needsName) : namesModel ms := by
  rcases hkeeps with hnames | hextends
  · exact hnames
  · obtain ⟨_, _, -, hkey', ws, rfl, hshows⟩ := h.settledFor hmem he hneeds
    obtain ⟨_, heq, hnames, hextends', -⟩ := namesModel_of_structuralKey hkey hkey'
    obtain rfl := Value.mapping.inj heq
    rw [← hnames, ← hextends'] at hshows
    simpa [hextends] using hshows

/-- A type that is remembered for a schema that names a model has the name of its title. -/
theorem Registry.Keyed.isModelOf (h : r.Keyed) (hmem : (key, id) ∈ r.anonymous)
    (hkey : structuralKey (.mapping ms) = .ok key) (hnames : namesModel ms)
    (htitle : Members.get? ms "title" = some (.text title)) (hne : title ≠ "")
    (he : r.entries[id]? = some e) (hneeds : e.body.needsName) : r.IsModelOf title id := by
  obtain ⟨schema, hint, hsettled, hkey', -⟩ := h.settledFor hmem he hneeds
  obtain ⟨ns, rfl, -, -, hread⟩ := namesModel_of_structuralKey hkey hkey'
  obtain ⟨text, n, htext, hname⟩ := hsettled.named hneeds
  have hmodel : modelName (.mapping ns) hint e.body = .ok title := by
    simp [modelName, hread hnames title htitle, bind, Except.bind, Value.isTruthy, Scalar.isTruthy,
      hne, Value.asText]
  obtain rfl := Except.ok.inj (hmodel.symm.trans htext)
  exact ⟨e, n, he, hname⟩

/-- Whether a resolution in a run of calls, of a schema with a title, gave a type that needs a
name. -/
structure Task.Titled (document : Value) (calls : List Call) (a : Task) (ms : Members)
    (title : String) (i : TypeId) : Prop where
  inRun : ∃ outer, a.InRun document calls outer
  schema : a.schema.orEmpty = .mapping ms
  anonymous : isReference (.mapping ms) = .ok false
  title : Members.get? ms "title" = some (.text title)
  resolved : (a.resolved document).1 = .ok i
  model : ∃ e, (history document calls).entries[i]? = some e ∧ e.body.needsName

theorem Task.Titled.remembered (h : a.Titled document calls ms title i) :
    ∃ key, structuralKey (.mapping ms) = .ok key ∧
      (key, i) ∈ (history document calls).anonymous := by
  obtain ⟨_, hrun⟩ := h.inRun
  obtain ⟨key, hshape, hkey⟩ := Task.exists_isShape h.schema h.anonymous h.resolved
  exact ⟨key, hkey, hrun.mem_anonymous hshape h.resolved⟩

theorem Task.Titled.isModelOf (h : a.Titled document calls ms title i) (hkeeps : KeepsTitle ms)
    (hne : title ≠ "") : (history document calls).IsModelOf title i := by
  have hkeyed := history_keyed document calls
  obtain ⟨key, hkey, hmem⟩ := h.remembered
  obtain ⟨e, he, hneeds⟩ := h.model
  exact hkeyed.isModelOf hmem hkey (hkeyed.showsModel hmem hkey hkeeps he hneeds) h.title hne he
    hneeds

/-- Schemas with different titles get different types in a run of calls if one of them keeps its
title, and each that keeps its title gets a model of that title. -/
theorem titled_types_apart (ha : a.Titled document calls ms title i)
    (hb : b.Titled document calls ns other j) (hne : title ≠ other) (hkeeps : KeepsTitle ms) :
    i ≠ j ∧ (title ≠ "" → (history document calls).IsModelOf title i) ∧
      (KeepsTitle ns → other ≠ "" → (history document calls).IsModelOf other j) := by
  refine ⟨?_, ha.isModelOf hkeeps, hb.isModelOf⟩
  have hkeyed := history_keyed document calls
  obtain ⟨key, hms, hmem⟩ := ha.remembered
  obtain ⟨key', hns, hmem'⟩ := hb.remembered
  obtain ⟨e, he, hneeds⟩ := ha.model
  rintro rfl
  obtain rfl := hkeyed.key_unique hmem hmem'
  have hnames := hkeyed.showsModel hmem hms hkeeps he hneeds
  obtain ⟨_, heq, -, -, hread⟩ := namesModel_of_structuralKey hms hns
  obtain rfl := Value.mapping.inj heq
  have htitles := (hread hnames title ha.title).symm.trans hb.title
  exact hne (Scalar.text.inj (Value.scalar.inj (Option.some.inj htitles)))

def titledObject (title : String) : Members :=
  [(.text "title", .text title), (.text "properties", .mapping [(.text "x", .empty)])]

def titledExtension (title : String) : Members :=
  [(.text "title", .text title), (.text "allOf", .sequence [
    .mapping [(.text "properties", .mapping [(.text "x", .empty)])],
    .mapping [(.text "properties", .mapping [(.text "y", .empty)])]])]

def titledCalls (members : String → Members) : List Call :=
  [plainCall (.mapping (members "A")), plainCall (.mapping (members "B"))]

theorem titled_types_apart_objects :
    ∃ (a b : Task) (ms ns : Members) (i j : TypeId),
      a.Titled .empty (titledCalls titledObject) ms "A" i ∧
      b.Titled .empty (titledCalls titledObject) ns "B" j ∧ KeepsTitle ms ∧ KeepsTitle ns ∧
      i ≠ j ∧ (history .empty (titledCalls titledObject)).IsModelOf "A" i ∧
      (history .empty (titledCalls titledObject)).IsModelOf "B" j := by
  obtain ⟨fuel, hfuel⟩ := Nat.exists_eq_add_of_le'
    (show 9 ≤ resolveDepth .empty (.mapping (titledObject "A")) by decide)
  obtain ⟨fuel', hfuel'⟩ := Nat.exists_eq_add_of_le'
    (show 9 ≤ resolveDepth .empty (.mapping (titledObject "B")) by decide)
  have ha : Task.Titled .empty (titledCalls titledObject)
      ⟨fuel + 9, [], .mapping (titledObject "A"), "", history .empty []⟩ _ "A" 1 :=
    ⟨⟨[], plainCall_inRun [] _ rfl hfuel⟩, rfl, rfl, rfl, rfl, _, rfl, rfl⟩
  have hb : Task.Titled .empty (titledCalls titledObject)
      ⟨fuel' + 9, [], .mapping (titledObject "B"), "", history .empty [_]⟩ _ "B" 2 :=
    ⟨⟨[], plainCall_inRun [_] [] rfl hfuel'⟩, rfl, rfl, rfl, rfl, _, rfl, rfl⟩
  have hkeeps : ∀ title, KeepsTitle (titledObject title) := fun _ => .inl rfl
  obtain ⟨hne, hmodel, hmodel'⟩ := titled_types_apart ha hb (by decide) (hkeeps _)
  exact ⟨_, _, _, _, _, _, ha, hb, hkeeps _, hkeeps _, hne, hmodel (by decide),
    hmodel' (hkeeps _) (by decide)⟩

/-- Objects that extend others without properties of their own get one type, whatever their titles
are: the model of the title that was resolved first. -/
theorem titled_extensions_share_type :
    ∃ (a b : Task) (ms ns : Members) (i : TypeId), className "A" ≠ className "B" ∧
      a.Titled .empty (titledCalls titledExtension) ms "A" i ∧
      b.Titled .empty (titledCalls titledExtension) ns "B" i ∧
      (history .empty (titledCalls titledExtension)).modelNames = ["A"] := by
  obtain ⟨fuel, hfuel⟩ := Nat.exists_eq_add_of_le'
    (show 9 ≤ resolveDepth .empty (.mapping (titledExtension "A")) by decide)
  obtain ⟨fuel', hfuel'⟩ := Nat.exists_eq_add_of_le'
    (show 9 ≤ resolveDepth .empty (.mapping (titledExtension "B")) by decide)
  have ha : Task.Titled .empty (titledCalls titledExtension)
      ⟨fuel + 9, [], .mapping (titledExtension "A"), "", history .empty []⟩ _ "A" 1 :=
    ⟨⟨[], plainCall_inRun [] _ rfl hfuel⟩, rfl, rfl, rfl, rfl, _, rfl, rfl⟩
  have hb : Task.Titled .empty (titledCalls titledExtension)
      ⟨fuel' + 9, [], .mapping (titledExtension "B"), "", history .empty [_]⟩ _ "B" 1 :=
    ⟨⟨[], plainCall_inRun [_] [] rfl hfuel'⟩, rfl, rfl, rfl, rfl, _, rfl, rfl⟩
  exact ⟨_, _, _, _, _, by decide, ha, hb, rfl⟩

end OpenApiClient.Schema

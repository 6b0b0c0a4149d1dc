import OpenApiClient.Proofs.CallHistories
import OpenApiClient.Proofs.LayerCases
import Mathlib.Logic.Relation

/-! # What a run does to a registry

A run changes a registry in steps of five kinds. It takes a name and registers a type under it,
opens a reference, fills in a type that was registered by name alone, settles a type that is
described, or writes to the log. Every id that a step puts into an entry is there already, so steps
keep registries well formed; and every call, whether it succeeds or fails, is a series of steps. -/
namespace OpenApiClient.Schema

open RegistryM Relation

variable {document schema : Value} {hint key name : String} {resolve : Resolver}
  {r s t : Registry} {id : TypeId} {e : Entry}

def Body.ids (b : Body) : List TypeId := b.children ++ b.fields.map Field.type

def placeholder (name : String) : Entry := { body := .primitive .any, name := some name }

/-- Whether the members of a schema show that its type needs a name, or it extends others. -/
def ShowsName (schema : Value) : Prop :=
  ∃ ms, schema = .mapping ms ∧ (namesModel ms ∨ Members.has ms "allOf")

/-- Whether a type is remembered under a key: the key of the schema that it was described from, or
that of the type that it is optional of. -/
def IsKeyOf (key : String) (schema : Value) (e : Entry) : Prop :=
  structuralKey schema = .ok key ∧ (e.body.needsName → ShowsName schema) ∨
    ∃ inner, key = optionalKey inner ∧ e.body = .optional inner

namespace Registry

/-- One change of a registry in the course of a run. -/
inductive Step (r : Registry) : Registry → Prop
  /-- A name is taken, and a type is registered under it. -/
  | named (text : String) : Step r (r.named (r.nameFor text))
  /-- A reference that is not known is opened. -/
  | opened (reference : String) (hnew : r.refs.lookup reference = none) :
      Step r (r.opened reference (r.nameFor (Text.lastField '/' reference)))
  /-- A type that was registered by name alone is filled in. -/
  | filled {id : TypeId} {name : String} {e : Entry}
      (hplace : r.entries[id]? = some (placeholder name))
      (hids : ∀ i ∈ e.body.ids, i < r.entries.size) :
      Step r (r.replace id { e with name := some name })
  /-- A type that is described is settled. -/
  | settled {schema : Value} {hint key : String} {e : Entry} {t : Registry}
      (h : Settles schema hint key e r t) (hkey : IsKeyOf key schema e) (hname : e.name = none)
      (hids : ∀ i ∈ e.body.ids, i < r.entries.size) : Step r t
  /-- A record is written to the log. -/
  | logged (record : LogRecord) : Step r (r.logged record)

/-- Some changes of a registry, one after another. -/
abbrev Steps : Registry → Registry → Prop := ReflTransGen Step

/-- A registry is well formed when all ids in it are those of entries, when all types that need a
name have one, and when the types without a name refer to types before them. -/
structure WellFormed (r : Registry) : Prop where
  ids {id : TypeId} {e : Entry} : r.entries[id]? = some e → ∀ i ∈ e.body.ids, i < r.entries.size
  anonymous {key : String} {id : TypeId} : (key, id) ∈ r.anonymous → id < r.entries.size
  refs {text : String} {id : TypeId} : (text, id) ∈ r.refs → id < r.entries.size
  named {id : TypeId} {e : Entry} : r.entries[id]? = some e → e.body.needsName → e.name.isSome
  older {id : TypeId} {e : Entry} : r.entries[id]? = some e → e.name = none →
    ∀ i ∈ e.body.ids, i < id

theorem wellFormed_empty : ({} : Registry).WellFormed where
  ids h := by simp at h
  anonymous h := by simp at h
  refs h := by simp at h
  named h := by simp at h
  older h := by simp at h

namespace WellFormed

/-- A new entry that refers to those before it keeps a registry well formed. -/
theorem add (h : r.WellFormed) (hentries : t.entries = r.entries.push e)
    (hids : ∀ i ∈ e.body.ids, i < r.entries.size) (hneeds : e.body.needsName → e.name.isSome)
    (hanonymous : ∀ m ∈ t.anonymous, m ∈ r.anonymous ∨ m.2 = r.entries.size)
    (hrefs : ∀ m ∈ t.refs, m ∈ r.refs ∨ m.2 = r.entries.size) : t.WellFormed := by
  have hsize : t.entries.size = r.entries.size + 1 := by rw [hentries, Array.size_push]
  have hcases : ∀ {id : TypeId} {other : Entry}, t.entries[id]? = some other →
      r.entries[id]? = some other ∨ id = r.entries.size ∧ other = e := by
    intro id other hother
    rw [hentries, Array.getElem?_push] at hother
    split at hother
    · exact .inr ⟨‹_›, (Option.some.inj hother).symm⟩
    · exact .inl hother
  constructor
  · intro id other hother i hi
    rw [hsize]
    rcases hcases hother with hold | ⟨-, rfl⟩
    · exact Nat.lt_succ_of_lt (h.ids hold i hi)
    · exact Nat.lt_succ_of_lt (hids i hi)
  · intro key id hmem
    rw [hsize]
    rcases hanonymous _ hmem with hold | rfl
    · exact Nat.lt_succ_of_lt (h.anonymous hold)
    · exact Nat.lt_succ_self _
  · intro text id hmem
    rw [hsize]
    rcases hrefs _ hmem with hold | rfl
    · exact Nat.lt_succ_of_lt (h.refs hold)
    · exact Nat.lt_succ_self _
  · intro id other hother hother'
    rcases hcases hother with hold | ⟨-, rfl⟩
    · exact h.named hold hother'
    · exact hneeds hother'
  · intro id other hother hname i hi
    rcases hcases hother with hold | ⟨rfl, rfl⟩
    · exact h.older hold hname i hi
    · exact hids i hi

theorem replace (h : r.WellFormed) (hids : ∀ i ∈ e.body.ids, i < r.entries.size)
    (hname : e.name.isSome) (id : TypeId) : (r.replace id e).WellFormed := by
  have hcases : ∀ {i : TypeId} {other : Entry}, (r.replace id e).entries[i]? = some other →
      r.entries[i]? = some other ∨ other = e := by
    intro i other hother
    rw [Registry.replace, Array.getElem?_setIfInBounds] at hother
    split at hother
    · split at hother
      · exact .inr (Option.some.inj hother).symm
      · simp at hother
    · exact .inl hother
  constructor
  · intro i other hother
    rw [size_replace]
    rcases hcases hother with hold | rfl
    · exact h.ids hold
    · exact hids
  · exact fun hmem => size_replace r id e ▸ h.anonymous hmem
  · exact fun hmem => size_replace r id e ▸ h.refs hmem
  · intro i other hother hneeds
    rcases hcases hother with hold | rfl
    · exact h.named hold hneeds
    · exact hname
  · intro i other hother hnone
    rcases hcases hother with hold | rfl
    · exact h.older hold hnone
    · simp [hnone] at hname

end WellFormed

theorem Step.size_le (h : r.Step s) : r.entries.size ≤ s.entries.size := by
  cases h with
  | named text => exact Nat.le_of_lt (size_push _ _ ▸ Nat.lt_succ_self _)
  | opened reference hnew => exact Nat.le_of_lt (size_push _ _ ▸ Nat.lt_succ_self _)
  | filled hplace hids => exact Nat.le_of_eq (size_replace _ _ _).symm
  | settled h hkey hname hids =>
    cases h with
    | unnamed hneeds => exact Nat.le_of_lt (size_push _ _ ▸ Nat.lt_succ_self _)
    | named text hneeds htext => exact Nat.le_of_lt (size_push _ _ ▸ Nat.lt_succ_self _)
  | logged record => exact Nat.le_refl _

theorem Steps.size_le (h : r.Steps s) : r.entries.size ≤ s.entries.size := by
  induction h with
  | refl => exact Nat.le_refl _
  | tail _ hstep ih => exact Nat.le_trans ih hstep.size_le

private theorem placeholder_ids (name : String) :
    ∀ i ∈ (placeholder name).body.ids, i < r.entries.size := by
  simp [placeholder, Body.ids, Body.children, Body.fields]

private theorem mem_cons_size {m : String × TypeId} {memos : List (String × TypeId)}
    (h : m ∈ (key, r.entries.size) :: memos) : m ∈ memos ∨ m.2 = r.entries.size := by
  rcases List.mem_cons.mp h with rfl | h
  · exact .inr rfl
  · exact .inl h

theorem Step.wellFormed (h : r.Step s) (hr : r.WellFormed) : s.WellFormed := by
  cases h with
  | named text =>
    exact hr.add rfl (placeholder_ids _) (fun _ => rfl) (fun _ => .inl) fun _ => .inl
  | opened reference hnew =>
    exact hr.add rfl (placeholder_ids _) (fun _ => rfl) (fun _ => .inl) fun _ => mem_cons_size
  | @filled id name e hplace hids =>
    exact hr.replace (e := { e with name := some name }) hids rfl id
  | @settled schema hint key e _ h hkey hname hids =>
    cases h with
    | unnamed hneeds =>
      exact hr.add rfl hids (by simp [hneeds]) (fun _ => mem_cons_size) fun _ => .inl
    | named text hneeds htext =>
      exact hr.add (e := { e with name := some (r.nameFor text) }) rfl hids (fun _ => rfl)
        (fun _ => mem_cons_size) fun _ => .inl
  | logged record => exact ⟨hr.ids, hr.anonymous, hr.refs, hr.named, hr.older⟩

theorem Steps.wellFormed (h : r.Steps s) (hr : r.WellFormed) : s.WellFormed := by
  induction h with
  | refl => exact hr
  | tail _ hstep ih => exact hstep.wellFormed ih

end Registry

open Registry

def Frame.needsPart : Frame → Bool
  | array | map | optional | synonym => true
  | _ => false

private theorem mem_of_mem_distinctIds {ids : List TypeId} {i : TypeId} (h : i ∈ distinctIds ids) :
    i ∈ ids := by
  have hfold : ∀ {members : List TypeId}, i ∈ ids.foldl
      (fun members id => if members.contains id then members else members ++ [id]) members →
      i ∈ members ∨ i ∈ ids := by
    clear h
    induction ids with
    | nil => exact .inl
    | cons j rest ih =>
      intro members h
      rcases ih h with h | h
      · dsimp only at h
        split at h
        · exact .inl h
        · rcases List.mem_append.mp h with h | h
          · exact .inl h
          · exact .inr (List.mem_singleton.mp h ▸ List.mem_cons_self)
      · exact .inr (List.mem_cons_of_mem j h)
  exact (hfold h).resolve_left (by simp)

theorem Frame.ids_fill {frame : Frame} {ids : List TypeId} (h : frame.needsPart → ids ≠ []) :
    ∀ i ∈ (frame.fill ids).ids, i ∈ ids := by
  have hhead : ids ≠ [] → ids.headD 0 ∈ ids := by
    cases ids with
    | nil => exact fun hne => absurd rfl hne
    | cons id rest => exact fun _ => List.mem_cons_self
  intro i hi
  cases frame with
  | primitive p => simp [fill, Body.ids, Body.children, Body.fields] at hi
  | enumeration values => simp [fill, Body.ids, Body.children, Body.fields] at hi
  | union => simpa [fill, Body.ids, Body.children, Body.fields] using hi
  | object properties =>
    simp only [fill, Body.ids, Body.children, Body.fields, List.nil_append, List.mem_map] at hi
    obtain ⟨f, hf, rfl⟩ := hi
    obtain ⟨n, hn⟩ := List.mem_iff_getElem?.mp hf
    obtain ⟨p, id, -, hid, rfl⟩ := List.getElem?_zipWith_eq_some.mp hn
    exact List.mem_of_getElem? hid
  | choice =>
    simp only [fill] at hi
    split at hi
    · rename_i only honly
      obtain rfl : i = only := by simpa [Body.ids, Body.children, Body.fields] using hi
      exact mem_of_mem_distinctIds (honly ▸ List.mem_cons_self)
    · exact mem_of_mem_distinctIds (by simpa [Body.ids, Body.children, Body.fields] using hi)
  | _ =>
    obtain rfl : i = ids.headD 0 := by simpa [fill, Body.ids, Body.children, Body.fields] using hi
    exact hhead (h rfl)

private theorem parts_ne_nil_of_objectLayer {outer : Layer} (h : objectLayer schema hint = .ok outer)
    (hneeds : outer.frame.needsPart) : outer.parts ≠ [] := by
  obtain ⟨ms, rfl, ⟨_, _, -, -, -, rfl⟩ | ⟨-, rfl⟩⟩ := objectLayer_ok h
  · simp [fieldsLayer, Frame.needsPart] at hneeds
  · simp [mapLayer]

theorem parts_ne_nil {outer : Layer} (houter : layer document schema hint = .ok outer)
    (hneeds : outer.frame.needsPart) : outer.parts ≠ [] := by
  obtain ⟨ms, rfl, h⟩ := isLayer_of_ok houter
  cases h with
  | merged _ _ _ h => exact parts_ne_nil_of_objectLayer h hneeds
  | object _ h => exact parts_ne_nil_of_objectLayer h hneeds
  | choice _ _ _ => simp [unionLayer, Frame.needsPart] at hneeds
  | types _ => simp [unionLayer, Frame.needsPart] at hneeds
  | enumeration values => simp [Frame.needsPart] at hneeds
  | primitive p => simp [Frame.needsPart] at hneeds
  | _ => simp [singleLayer]

/-- Whether a resolution is a series of steps, and the type that it gives is there. -/
def Stepwise (resolve : Resolver) : Prop :=
  ∀ {schema hint r x t}, r.WellFormed → outcome (resolve schema hint) r = (x, t) →
    r.Steps t ∧ ∀ {id}, x = .ok id → id < t.entries.size

theorem resolvePart_steps (h : Stepwise resolve) (hr : r.WellFormed) {part : Part}
    {x : Except Fault TypeId} (hpart : outcome (resolvePart resolve part) r = (x, t)) :
    r.Steps t ∧ ∀ {id}, x = .ok id → id < t.entries.size := by
  cases x with
  | ok id => exact h hr (resolvePart_ok hpart).1
  | error fault =>
    refine ⟨?_, by simp⟩
    rcases resolvePart_error hpart with hresolve | ⟨id, hresolve, -⟩
    · exact (h hr hresolve).1
    · exact (h hr hresolve).1

theorem parts_steps_of_ok (h : Stepwise resolve) {parts : List Part} {ids : List TypeId}
    (hr : r.WellFormed) (hparts : outcome (parts.mapM (resolvePart resolve)) r = (.ok ids, t)) :
    r.Steps t ∧ ids.length = parts.length ∧ ∀ i ∈ ids, i < t.entries.size := by
  induction parts generalizing r ids with
  | nil =>
    simp only [mapM_nil_outcome, Prod.mk.injEq, Except.ok.injEq] at hparts
    obtain ⟨rfl, rfl⟩ := hparts
    exact ⟨.refl, rfl, by simp⟩
  | cons part rest ih =>
    obtain ⟨id, s, others, hpart, hrest, rfl⟩ := mapM_cons_ok_iff.mp hparts
    obtain ⟨hs, hid⟩ := resolvePart_steps h hr hpart
    obtain ⟨ht, hlength, hothers⟩ := ih (hs.wellFormed hr) hrest
    refine ⟨hs.trans ht, by simp [hlength], ?_⟩
    exact List.forall_mem_cons.mpr ⟨Nat.lt_of_lt_of_le (hid rfl) ht.size_le, hothers⟩

theorem parts_steps (h : Stepwise resolve) {parts : List Part} {x : Except Fault (List TypeId)}
    (hr : r.WellFormed) (hparts : outcome (parts.mapM (resolvePart resolve)) r = (x, t)) :
    r.Steps t := by
  cases x with
  | ok ids => exact (parts_steps_of_ok h hr hparts).1
  | error fault =>
    -- The parts before the one that fails stay registered.
    obtain ⟨before, part, after, ids, s, -, hbefore, hpart⟩ := mapM_error hparts
    have hs := (parts_steps_of_ok h hr hbefore).1
    exact hs.trans (resolvePart_steps h (hs.wellFormed hr) hpart).1

/-- A description is a series of steps. It gives an entry without a name, of types that are
there. -/
theorem describe_steps (h : Stepwise resolve) (hr : r.WellFormed) {x : Except Fault Entry}
    (hdescribe : outcome (describe document resolve schema hint) r = (x, t)) :
    r.Steps t ∧ ∀ {e}, x = .ok e → e.name = none ∧ ∀ i ∈ e.body.ids, i < t.entries.size := by
  cases x with
  | ok e =>
    obtain ⟨_, outer, ids, -, houter, hparts, rfl⟩ := describe_ok_iff.mp hdescribe
    obtain ⟨ht, hlength, hids⟩ := parts_steps_of_ok h hr hparts
    refine ⟨ht, ?_⟩
    rintro _ ⟨⟩
    refine ⟨rfl, fun i hi => hids i (Frame.ids_fill (fun hneeds => ?_) i hi)⟩
    have hne := List.length_pos_iff.mpr (parts_ne_nil houter hneeds)
    exact List.length_pos_iff.mp (hlength ▸ hne)
  | error fault =>
    refine ⟨?_, by simp⟩
    rcases describe_error hdescribe with ⟨rfl, -⟩ | ⟨_, -, hparts⟩
    · exact .refl
    · exact parts_steps h hr hparts

/-- A description of a type that needs a name is that of a schema which shows it. -/
theorem describe_showsName
    (hdescribe : outcome (describe document resolve schema hint) r = (.ok e, t))
    (hneeds : e.body.needsName) : ShowsName schema := by
  obtain ⟨_, outer, ids, -, houter, -, rfl⟩ := describe_ok_iff.mp hdescribe
  obtain ⟨ms, rfl, hlayer⟩ := isLayer_of_ok houter
  exact ⟨ms, rfl, namesModel_or_extends hlayer hneeds⟩

theorem getElem?_named (r : Registry) (name : String) :
    (r.named name).entries[r.entries.size]? = some (placeholder name) :=
  Array.getElem?_push_size

theorem filled_of_describe (h : Stepwise resolve) (hgrowing : Growing resolve) (hr : r.WellFormed)
    (hplace : r.entries[id]? = some (placeholder name))
    (hdescribe : outcome (describe document resolve schema hint) r = (.ok e, s)) :
    s.Step (s.replace id { e with name := some name }) := by
  obtain ⟨-, he⟩ := describe_steps h hr hdescribe
  have hid : id < r.entries.size := (Array.getElem?_eq_some_iff.mp hplace).1
  -- The description leaves the place alone, which was there before it.
  exact .filled (((describe_extends hgrowing hdescribe).entry hid).trans hplace) (he rfl).2

variable {text : String}

theorem Registry.WellFormed.opened (hr : r.WellFormed) (hnew : r.refs.lookup text = none) :
    (r.opened text (r.nameFor (Text.lastField '/' text))).WellFormed :=
  (Step.opened text hnew).wellFormed hr

/-- The type of a reference is filled in when its target is described, and this is logged. -/
theorem reference_filled (h : Stepwise resolve) (hgrowing : Growing resolve) (hr : r.WellFormed)
    (hnew : r.refs.lookup text = none) {target : Value}
    (hdescribe : outcome (describe document resolve target
      (r.nameFor (Text.lastField '/' text))) (r.opened text (r.nameFor (Text.lastField '/' text))) =
        (.ok e, s)) (record : LogRecord) :
    s.Steps ((s.replace r.entries.size
      { e with name := some (r.nameFor (Text.lastField '/' text)) }).logged record) :=
  .tail (.single (filled_of_describe h hgrowing (hr.opened hnew) (getElem?_named r _) hdescribe))
    (.logged record)

private theorem resolveRef_steps (h : Stepwise resolve) (hgrowing : Growing resolve) (hr : r.WellFormed)
    {reference : Value} {x : Except Fault TypeId}
    (href : outcome (resolveRef document resolve reference) r = (x, t)) :
    r.Steps t ∧ ∀ {id}, x = .ok id → id < t.entries.size := by
  cases x with
  | ok id =>
    obtain ⟨text, -, ⟨hknown, rfl⟩ | ⟨target, e, s, hnew, -, hdescribe, rfl, rfl⟩⟩ :=
      resolveRef_ok href
    · refine ⟨.refl, ?_⟩
      rintro _ ⟨⟩
      exact hr.refs (mem_of_lookup hknown)
    · have hopened : r.Steps (r.opened text (r.nameFor (Text.lastField '/' text))) :=
        .single (.opened text hnew)
      have hs := (describe_steps h (hr.opened hnew) hdescribe).1
      refine ⟨hopened.trans (hs.trans (reference_filled h hgrowing hr hnew hdescribe _)), ?_⟩
      rintro _ ⟨⟩
      have hsize : (r.opened text (r.nameFor (Text.lastField '/' text))).entries.size =
          r.entries.size + 1 := size_push _ _
      exact (size_replace s _ _).symm ▸ Nat.lt_of_lt_of_le (hsize ▸ Nat.lt_succ_self _) hs.size_le
  | error fault =>
    refine ⟨?_, by simp⟩
    rcases resolveRef_error href with ⟨rfl, -⟩ | ⟨text, target, -, hnew, -, hdescribe⟩
    · exact .refl
    · exact .head (.opened text hnew) (describe_steps h (hr.opened hnew) hdescribe).1

theorem Settles.size_eq (h : Settles schema hint key e s t) :
    t.entries.size = s.entries.size + 1 := by
  cases h with
  | unnamed hneeds => exact size_push _ _
  | named text hneeds htext => exact size_push _ _

theorem resolveWith_steps (document : Value) (fuel : Nat) (active : List (Value × Nat)) :
    Stepwise (resolveWith document fuel active) := by
  induction fuel generalizing active with
  | zero =>
    intro schema hint r x t hr h
    simp only [resolveWith, outcome_throw, Prod.mk.injEq] at h
    obtain ⟨rfl, rfl⟩ := h
    exact ⟨.refl, by simp⟩
  | succ fuel ih =>
    intro schema hint r x t hr h
    have hgrowing : ∀ active, Growing (resolveWith document fuel active) :=
      resolveWith_growing document fuel
    cases x with
    | ok id =>
      rcases resolveWith_ok h with ⟨_, -, -, href⟩ |
        ⟨-, key, hkey, ⟨hknown, rfl⟩ | ⟨e, s, -, -, hdescribe, rfl, hsettles⟩⟩
      · exact resolveRef_steps (ih []) (hgrowing []) hr href
      · refine ⟨.refl, ?_⟩
        rintro _ ⟨⟩
        exact hr.anonymous (mem_of_lookup hknown)
      · obtain ⟨hs, he⟩ := describe_steps (ih _) hr hdescribe
        have hisKey : IsKeyOf key schema.orEmpty e := .inl ⟨hkey, describe_showsName hdescribe⟩
        refine ⟨hs.tail (.settled hsettles hisKey (he rfl).1 (he rfl).2), ?_⟩
        rintro _ ⟨⟩
        exact hsettles.size_eq ▸ Nat.lt_succ_self _
    | error fault =>
      refine ⟨?_, by simp⟩
      rcases resolveWith_error h with ⟨rfl, -⟩ | ⟨_, -, -, href⟩ |
        ⟨-, key, -, -, ⟨-, -, rfl⟩ | ⟨-, hdescribe⟩ | ⟨e, -, hdescribe, -⟩⟩
      · exact .refl
      · exact (resolveRef_steps (ih []) (hgrowing []) hr href).1
      · exact .refl
      · exact (describe_steps (ih _) hr hdescribe).1
      · exact (describe_steps (ih _) hr hdescribe).1

theorem optional_steps (hr : r.WellFormed) {inner : TypeId} (hinner : inner < r.entries.size) :
    r.Steps (outcome (optional inner) r).2 ∧ ∀ {id}, (outcome (optional inner) r).1 = .ok id →
      id < (outcome (optional inner) r).2.entries.size := by
  rcases outcome_optional inner r with ⟨_, -, h⟩ | ⟨-, ⟨other, hknown, h⟩ | ⟨-, h⟩⟩
  · rw [h]
    refine ⟨.refl, ?_⟩
    rintro _ ⟨⟩
    exact hinner
  · rw [h]
    refine ⟨.refl, ?_⟩
    rintro _ ⟨⟩
    exact hr.anonymous (mem_of_lookup hknown)
  · have hsettles : Settles .empty "" (optionalKey inner) { body := .optional inner } r
        (r.settled (optionalKey inner) { body := .optional inner }) := .unnamed rfl
    rw [h]
    refine ⟨.single (.settled hsettles (.inr ⟨inner, rfl, rfl⟩) rfl ?_), ?_⟩
    · simpa [Body.ids, Body.children, Body.fields] using hinner
    · rintro _ ⟨⟩
      exact hsettles.size_eq ▸ Nat.lt_succ_self _

private theorem wrap_steps {m : RegistryM TypeId} (hr : r.WellFormed) (nullable : Bool)
    (h : r.Steps (outcome m r).2 ∧
      ∀ {id}, (outcome m r).1 = .ok id → id < (outcome m r).2.entries.size) :
    r.Steps (outcome (m >>= wrap nullable) r).2 ∧
      ∀ {id}, (outcome (m >>= wrap nullable) r).1 = .ok id →
        id < (outcome (m >>= wrap nullable) r).2.entries.size := by
  rw [outcome_bind]
  cases hm : outcome m r with
  | mk x s =>
    rw [hm] at h
    obtain ⟨hs, hid⟩ := h
    cases x with
    | error fault => exact ⟨hs, by simp⟩
    | ok id =>
      cases nullable with
      | false => exact ⟨hs, fun {_} h => Except.ok.inj h ▸ hid rfl⟩
      | true =>
        obtain ⟨ht, hlt⟩ := optional_steps (hs.wellFormed hr) (hid rfl)
        exact ⟨hs.trans ht, hlt⟩

/-- A call is a series of steps, whether it succeeds or fails, and the type that it gives is
there. -/
theorem call_steps (document : Value) (hr : r.WellFormed) (call : Call) :
    r.Steps (r.afterCall document call) ∧ ∀ {id}, (outcome (call.run document) r).1 = .ok id →
      id < (r.afterCall document call).entries.size := by
  obtain ⟨preferred, schema, nullable, hint⟩ := call
  rcases resolve_cases document preferred schema nullable hint with ⟨-, h⟩ | ⟨text, -, -, h⟩
  · rw [afterCall, Call.run, h]
    exact wrap_steps hr nullable (resolveWith_steps document _ [] hr rfl)
  · rw [afterCall, Call.run, h]
    refine wrap_steps hr nullable ?_
    have hnamed : r.Step (r.named (r.nameFor text)) := .named text
    have hstepwise : Stepwise (resolveWith document (resolveDepth document schema.orEmpty) []) :=
      resolveWith_steps document _ []
    have hgrowing : Growing (resolveWith document (resolveDepth document schema.orEmpty) []) :=
      resolveWith_growing document _ []
    rw [outcome_claim_register]
    cases hbody : outcome (describe document (resolveWith document
        (resolveDepth document schema.orEmpty) []) schema.orEmpty (r.nameFor text))
        (r.named (r.nameFor text)) with
    | mk x s =>
      have hs := (describe_steps hstepwise (hnamed.wellFormed hr) hbody).1
      cases x with
      | error fault => exact ⟨.head hnamed hs, by simp⟩
      | ok e =>
        have hfilled := filled_of_describe hstepwise hgrowing (hnamed.wellFormed hr)
          (getElem?_named r _) hbody
        refine ⟨.head hnamed (hs.tail hfilled), ?_⟩
        rintro _ ⟨⟩
        have hsize : (r.named (r.nameFor text)).entries.size = r.entries.size + 1 := size_push _ _
        exact (size_replace s _ _).symm ▸
          Nat.lt_of_lt_of_le (hsize ▸ Nat.lt_succ_self _) hs.size_le

private theorem afterCalls_steps (document : Value) (hr : r.WellFormed) (calls : List Call) :
    r.Steps (r.afterCalls document calls) :=
  afterCalls_induct (P := r.Steps) .refl
    (fun call hs => hs.trans (call_steps document (hs.wellFormed hr) call).1) calls

theorem history_steps (document : Value) (calls : List Call) :
    ({} : Registry).Steps (history document calls) :=
  afterCalls_steps document wellFormed_empty calls

theorem history_wellFormed (document : Value) (calls : List Call) :
    (history document calls).WellFormed :=
  (history_steps document calls).wellFormed wellFormed_empty

end OpenApiClient.Schema

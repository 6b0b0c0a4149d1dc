import OpenApiClient.Proofs.ModelNames
import OpenApiClient.Proofs.NestedResolutions
import OpenApiClient.Proofs.SchemaGraph

/-! # Types that are remembered

A reference is remembered before its target is described, so that every resolution of it gives one
type, also those within the target. A shape is remembered after it is described. Resolutions of a
shape give one type as well, except for those within another resolution of that shape. -/
namespace OpenApiClient.Schema

open RegistryM Registry Naming

variable {document : Value} {calls : List Call} {outer outer' : List Task} {a b : Task}
  {r s t : Registry} {text key : String} {i j : TypeId}

theorem Task.IsReference.remembered (h : a.IsReference text)
    (ha : a.resolved document = (.ok i, t)) : t.refs.lookup text = some i := by
  obtain ⟨fuel, active, schema, hint, r⟩ := a
  obtain ⟨hisRef, htext⟩ := h
  cases fuel with
  | zero => simp [Task.resolved, resolveWith] at ha
  | succ fuel =>
    rcases resolveWith_ok ha with ⟨_, -, hreference, href⟩ | ⟨hfalse, -⟩
    · obtain rfl := Except.ok.inj (htext.symm.trans hreference)
      obtain ⟨_, ⟨⟩, ⟨hknown, rfl⟩ | ⟨target, e, s, hnew, -, hdescribe, rfl, rfl⟩⟩ :=
        resolveRef_ok href
      · exact hknown
      -- The reference is remembered when it is opened, and nothing is forgotten after that.
      · have hgrown := describe_extends (resolveWith_growing document fuel []) hdescribe
        exact hgrown.reference (by simp [Registry.opened])
    · simp [hisRef] at hfalse

theorem Task.IsShape.remembered (h : a.IsShape key) (ha : a.resolved document = (.ok i, t)) :
    t.anonymous.lookup key = some i := by
  obtain ⟨fuel, active, schema, hint, r⟩ := a
  obtain ⟨hisRef, hkey⟩ := h
  cases fuel with
  | zero => simp [Task.resolved, resolveWith] at ha
  | succ fuel =>
    rcases resolveWith_ok ha with ⟨_, htrue, -⟩ |
      ⟨-, other, hother, ⟨hknown, rfl⟩ | ⟨e, s, -, -, -, rfl, hsettles⟩⟩
    · simp [hisRef] at htrue
    · exact Except.ok.inj (hkey.symm.trans hother) ▸ hknown
    · obtain rfl := Except.ok.inj (hkey.symm.trans hother)
      cases hsettles with
      | unnamed hneeds => simp [Registry.settled]
      | named text hneeds htext => simp [Registry.settled, Registry.withNames]

/-- At the end of a run a reference has the type that any resolution of it gave. -/
theorem Task.InRun.reference (h : a.InRun document calls outer) (htext : a.IsReference text)
    (hi : (a.resolved document).1 = .ok i) :
    (history document calls).refs.lookup text = some i :=
  h.kept (P := fun s => s.refs.lookup text = some i) (fun hgrown => hgrown.reference)
    (fun _ _ h => h) (fun _ _ _ _ hcloses h => hcloses.1 ▸ h)
    (htext.remembered (Prod.ext hi rfl))

/-- At the end of a run a shape has the type that any resolution of it gave which was not made
within another one. -/
theorem Task.InRun.shape (h : a.InRun document calls outer) (hkey : a.IsShape key)
    (houter : ∀ c ∈ outer, ¬ c.IsShape key) (hi : (a.resolved document).1 = .ok i) :
    (history document calls).anonymous.lookup key = some i := by
  refine h.kept (P := fun s => s.anonymous.lookup key = some i) (fun hgrown => hgrown.shape)
    (fun _ _ h => h) (fun c hc s t hcloses hs => ?_) (hkey.remembered (Prod.ext hi rfl))
  rcases hcloses.2 with heq | ⟨other, id, hother, heq⟩
  · exact heq ▸ hs
  -- A resolution around this one remembers a shape when it ends, but another one.
  · have hne : key ≠ other := by
      rintro rfl
      exact houter c hc hother
    rw [heq, List.lookup_cons, beq_false_of_ne hne]
    exact hs

namespace Registry

/-- Whether no reference is remembered twice, and each has a type with a name made of its last
part. -/
structure Referenced (r : Registry) : Prop where
  nodup : (r.refs.map Prod.fst).Nodup
  named {text : String} {id : TypeId} : (text, id) ∈ r.refs → ∃ e n, r.entries[id]? = some e ∧
    e.name = some (numbered (className (Text.lastField '/' text)) "" n)

private theorem referenced_empty : ({} : Registry).Referenced where
  nodup := List.nodup_nil
  named h := by simp at h

/-- Types may be registered and replaced as long as those that are there keep their names. -/
theorem Referenced.of_refs_eq (h : r.Referenced) (hrefs : s.refs = r.refs)
    (hentries : ∀ {id : TypeId} {e : Entry}, r.entries[id]? = some e →
      ∃ e', s.entries[id]? = some e' ∧ e'.name = e.name) : s.Referenced where
  nodup := hrefs ▸ h.nodup
  named hmem := by
    obtain ⟨e, n, he, hname⟩ := h.named (hrefs ▸ hmem)
    obtain ⟨e', he', hname'⟩ := hentries he
    exact ⟨e', n, he', hname'.trans hname⟩

theorem entries_push {e : Entry} (hentries : s.entries = r.entries.push e) {id : TypeId}
    {other : Entry} (hother : r.entries[id]? = some other) :
    ∃ e', s.entries[id]? = some e' ∧ e'.name = other.name := by
  have hid : id < r.entries.size := (Array.getElem?_eq_some_iff.mp hother).1
  exact ⟨other, by rw [hentries, Array.getElem?_push_lt hid, ← hother,
    Array.getElem?_eq_getElem hid], rfl⟩

/-- A reference that is opened was not remembered before, and gets a name of its last part. -/
theorem Referenced.opened (h : r.Referenced) (hnew : r.refs.lookup text = none) :
    (r.opened text (r.nameFor (Text.lastField '/' text))).Referenced where
  nodup := by
    refine List.nodup_cons.mpr ⟨fun hmem => ?_, h.nodup⟩
    obtain ⟨⟨_, id⟩, hid, rfl⟩ := List.mem_map.mp hmem
    exact absurd rfl (bne_iff_ne.mp (List.lookup_eq_none_iff.mp hnew _ hid))
  named := by
    intro other id hmem
    rcases List.mem_cons.mp hmem with heq | hmem
    · obtain ⟨rfl, rfl⟩ := Prod.mk.inj heq
      obtain ⟨n, hn, -⟩ := freeName_eq_numbered r.names (className (Text.lastField '/' other)) ""
      exact ⟨placeholder (r.nameFor (Text.lastField '/' other)), n, Array.getElem?_push_size,
        congrArg some hn⟩
    · obtain ⟨e, n, he, hname⟩ := h.named hmem
      obtain ⟨e', he', hname'⟩ := entries_push
        (s := r.opened text (r.nameFor (Text.lastField '/' text))) rfl he
      exact ⟨e', n, he', hname'.trans hname⟩

theorem Step.referenced (h : r.Step s) (hr : r.Referenced) : s.Referenced := by
  cases h with
  | named text => exact hr.of_refs_eq rfl (entries_push rfl)
  | opened reference hnew => exact hr.opened hnew
  | @filled id name e hplace hids =>
    refine hr.of_refs_eq rfl fun {other old} hold => ?_
    have hid : id < r.entries.size := (Array.getElem?_eq_some_iff.mp hplace).1
    rw [Registry.replace, Array.getElem?_setIfInBounds]
    by_cases heq : id = other
    · subst heq
      obtain rfl := Option.some.inj (hplace.symm.trans hold)
      exact ⟨{ e with name := some name }, by rw [if_pos rfl, if_pos hid], rfl⟩
    · exact ⟨old, by rw [if_neg heq, hold], rfl⟩
  | settled h hkey hname hids =>
    cases h with
    | unnamed hneeds => exact hr.of_refs_eq rfl (entries_push rfl)
    | named text hneeds htext => exact hr.of_refs_eq rfl (entries_push rfl)
  | logged record => exact hr.of_refs_eq rfl fun hold => ⟨_, hold, rfl⟩

theorem Steps.referenced (h : r.Steps s) (hr : r.Referenced) : s.Referenced := by
  induction h with
  | refl => exact hr
  | tail _ hstep ih => exact hstep.referenced ih

end Registry

/-- In a run of calls, successful or not, a reference is registered at most once, under a name that
is taken once. All resolutions of it, of any depth and also within its own target, give its type. -/
theorem reference_registered_once (document : Value) (calls : List Call) :
    let r := history document calls
    (r.refs.map Prod.fst).Nodup ∧
      (∀ text id, (text, id) ∈ r.refs → ∃ e name n, r.entries[id]? = some e ∧ e.name = some name ∧
        name = numbered (className (Text.lastField '/' text)) "" n ∧ r.names.count name = 1) ∧
      ∀ {text : String} {outer outer' : List Task} {a b : Task} {i j : TypeId},
        a.InRun document calls outer → b.InRun document calls outer' →
        a.IsReference text → b.IsReference text →
        (a.resolved document).1 = .ok i → (b.resolved document).1 = .ok j →
          i = j ∧ (text, i) ∈ r.refs := by
  intro r
  have hsteps := history_steps document calls
  have hreferenced : r.Referenced := hsteps.referenced referenced_empty
  have hdistinct : r.Distinct := hsteps.distinct distinct_empty
  refine ⟨hreferenced.nodup, fun text id hmem => ?_, fun ha hb hatext hbtext hi hj => ?_⟩
  · obtain ⟨e, n, he, hname⟩ := hreferenced.named hmem
    refine ⟨e, _, n, he, hname, rfl, List.count_eq_one_of_mem hdistinct.nodup ?_⟩
    rw [hdistinct.taken]
    refine List.mem_append_left _ (List.mem_reverse.mpr (List.mem_filterMap.mpr ⟨e, ?_, hname⟩))
    exact Array.mem_toList_iff.mpr (Array.mem_of_getElem? he)
  · have hknown := ha.reference hatext hi
    have hknown' := hb.reference hbtext hj
    exact ⟨Option.some.inj (hknown.symm.trans hknown'), mem_of_lookup hknown⟩

def childObject : Value :=
  .mapping [(.text "type", .text "object"),
    (.text "properties", .mapping [(.text "child", refTo "#/A")])]

def childDocument : Value :=
  .mapping [(.text "A", .mapping [
    (.text "type", .text "object"),
    (.text "properties", .mapping [(.text "x", childObject)])])]

def plainCall (schema : Value) : Call := ⟨none, schema, false, ""⟩

theorem childObject_makes (fuel : Nat) {active : List (Value × Nat)} (hint : String)
    (hnew : ∀ key, r.anonymous.lookup key = none)
    (hactive : (childObject, r.entries.size) ∉ active) :
    Task.Makes childDocument ⟨fuel + 1, active, childObject, hint, r⟩
      ⟨fuel, (childObject, r.entries.size) :: active, refTo "#/A", hint ++ " " ++ "child", r⟩ :=
  ⟨_, .shape ⟨rfl, rfl⟩ (hnew _) hactive, _, _, [], _, [], [], r, rfl, rfl, rfl, rfl, rfl⟩

theorem refTo_makes (fuel : Nat) (active : List (Value × Nat)) (hint : String)
    (hnew : r.refs.lookup "#/A" = none) :
    Task.Makes childDocument ⟨fuel + 1, active, refTo "#/A", hint, r⟩
      ⟨fuel, [], childObject, r.nameFor "A" ++ " " ++ "x", r.opened "#/A" (r.nameFor "A")⟩ := by
  have hreference : Task.IsReference ⟨fuel + 1, active, refTo "#/A", hint, r⟩ "#/A" := ⟨rfl, rfl⟩
  exact ⟨_, .target hreference hnew rfl rfl, _, _, [], _, [], [], _, rfl, rfl, rfl, rfl, rfl⟩

theorem plainCall_inRun (before after : List Call) {schema : Value}
    (hschema : schema.orEmpty = schema) {fuel : Nat} (hfuel : resolveDepth document schema = fuel) :
    Task.InRun document (before ++ plainCall schema :: after) []
      ⟨fuel, [], schema, "", history document before⟩ := by
  refine ⟨before, plainCall schema, after, rfl, ?_⟩
  have h : (plainCall schema).Makes document (history document before) []
      ⟨resolveDepth document schema.orEmpty, [], schema.orEmpty, "",
        history document before⟩ := .itself rfl
  rwa [hschema, hfuel] at h

/-- The reference is met again within its own target, when its type is only a place. -/
theorem reference_registered_once_childDocument :
    ∃ (outer : List Task) (a b : Task) (i : TypeId), outer.length = 2 ∧
      a.InRun childDocument [plainCall (refTo "#/A")] [] ∧
      b.InRun childDocument [plainCall (refTo "#/A")] outer ∧
      a.IsReference "#/A" ∧ b.IsReference "#/A" ∧
      (a.resolved childDocument).1 = .ok i ∧ (b.resolved childDocument).1 = .ok i ∧
      b.before.body? i = some (.primitive .any) ∧
      ("#/A", i) ∈ (history childDocument [plainCall (refTo "#/A")]).refs := by
  obtain ⟨fuel, hfuel⟩ := Nat.exists_eq_add_of_le'
    (show 9 ≤ resolveDepth childDocument (refTo "#/A") by decide)
  have ha := plainCall_inRun [] [] rfl hfuel
  have hb := (ha.within (refTo_makes (fuel + 8) [] "" rfl)).within
    (childObject_makes (fuel + 7) _ (fun _ => rfl) (by decide))
  have hareference : Task.IsReference ⟨fuel + 9, [], refTo "#/A", "", {}⟩ "#/A" := ⟨rfl, rfl⟩
  obtain ⟨-, -, hsame⟩ := reference_registered_once childDocument [plainCall (refTo "#/A")]
  obtain ⟨-, hmem⟩ := hsame ha hb hareference ⟨rfl, rfl⟩ (i := 0) (j := 0) rfl rfl
  exact ⟨_, _, _, 0, rfl, ha, hb, hareference, ⟨rfl, rfl⟩, rfl, rfl, rfl, hmem⟩

/-- All resolutions of a shape in a run of calls, of any depth, give one type, except for those that
are made within another resolution of that shape. -/
theorem shape_resolved_once (ha : a.InRun document calls outer) (hb : b.InRun document calls outer')
    (hakey : a.IsShape key) (hbkey : b.IsShape key) (houter : ∀ c ∈ outer, ¬ c.IsShape key)
    (houter' : ∀ c ∈ outer', ¬ c.IsShape key) (hi : (a.resolved document).1 = .ok i)
    (hj : (b.resolved document).1 = .ok j) :
    i = j ∧ (history document calls).anonymous.lookup key = some i := by
  have hknown := ha.shape hakey houter hi
  have hknown' := hb.shape hbkey houter' hj
  exact ⟨Option.some.inj (hknown.symm.trans hknown'), hknown⟩

/-- A second call for an object gives the type of the first one, and registers nothing. -/
theorem shape_resolved_once_childDocument :
    ∃ (a b : Task) (key : String), a.IsShape key ∧ b.IsShape key ∧
      a.InRun childDocument [plainCall childObject, plainCall childObject] [] ∧
      b.InRun childDocument [plainCall childObject, plainCall childObject] [] ∧
      a.before.entries.size = 0 ∧ b.before.entries.size = 3 ∧
      (a.resolved childDocument).1 = .ok 2 ∧ (b.resolved childDocument).1 = .ok 2 ∧
      (history childDocument [plainCall childObject, plainCall childObject]).anonymous.lookup key =
        some 2 := by
  obtain ⟨fuel, hfuel⟩ := Nat.exists_eq_add_of_le'
    (show 9 ≤ resolveDepth childDocument childObject by decide)
  have ha := plainCall_inRun [] [plainCall childObject] rfl hfuel
  have hb := plainCall_inRun [plainCall childObject] [] rfl hfuel
  obtain ⟨-, hknown⟩ := shape_resolved_once (i := 2) (j := 2) ha hb ⟨rfl, rfl⟩ ⟨rfl, rfl⟩
    (by simp) (by simp) rfl rfl
  exact ⟨_, _, _, ⟨rfl, rfl⟩, ⟨rfl, rfl⟩, ha, hb, rfl, rfl, rfl, rfl, hknown⟩

/-- A shape that is met again while it is described, through a reference to what it is part of, is
resolved twice, and gets two models. -/
theorem shape_resolved_twice_childDocument :
    ∃ (outer : List Task) (a b : Task) (key : String), a.IsShape key ∧ b.IsShape key ∧
      a.InRun childDocument [plainCall childObject] [] ∧
      b.InRun childDocument [plainCall childObject] outer ∧
      (a.resolved childDocument).1 = .ok 2 ∧ (b.resolved childDocument).1 = .ok 1 ∧
      (history childDocument [plainCall childObject]).body? 1 =
        (history childDocument [plainCall childObject]).body? 2 ∧
      (history childDocument [plainCall childObject]).modelNames = ["A", "AX", "Object"] := by
  obtain ⟨fuel, hfuel⟩ := Nat.exists_eq_add_of_le'
    (show 9 ≤ resolveDepth childDocument childObject by decide)
  have ha := plainCall_inRun [] [] rfl hfuel
  have hb := (ha.within (childObject_makes (fuel + 8) "" (fun _ => rfl) (by decide))).within
    (refTo_makes (fuel + 7) _ _ rfl)
  exact ⟨_, _, _, _, ⟨rfl, rfl⟩, ⟨rfl, rfl⟩, ha, hb, rfl, rfl, rfl, rfl⟩

end OpenApiClient.Schema

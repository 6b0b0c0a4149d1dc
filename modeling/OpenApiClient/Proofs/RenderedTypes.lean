import OpenApiClient.Proofs.RegistrySteps
import OpenApiClient.Schema.TypeText

/-! # Every type can be written

In a well formed registry a type without a name refers to types before it only, so that writing it
comes to an end, and types that cannot be written without a name have one. A type that refers to
itself does so through a name, which is all that is written of it. -/
namespace OpenApiClient.Schema

variable {r : Registry} {id : TypeId} {b : Body} {view : View}
  {child other : View → TypeId → Except Fault String}

/-- What is written of a body depends on what is written of the types in it alone. -/
theorem Body.typeText_congr (h : ∀ view, ∀ i ∈ b.children, child view i = other view i) :
    b.typeText child view = b.typeText other view := by
  cases b with
  | union members =>
    have hmembers : members.mapM (child view) = members.mapM (other view) := mapM_congr (h view)
    rw [typeText, typeText, hmembers]
  | primitive p => rfl
  | object fields => rfl
  | enumeration values => rfl
  | _ => simp only [typeText, h _ _ List.mem_cons_self]

theorem Body.typeText_ok (hneeds : b.needsName = false)
    (h : ∀ view, ∀ i ∈ b.children, ∃ text, child view i = .ok text) :
    ∃ text, b.typeText child view = .ok text := by
  cases b with
  | primitive p => exact ⟨_, rfl⟩
  | object fields => cases hneeds
  | enumeration values => cases hneeds
  | union members =>
    obtain ⟨texts, htexts⟩ : ∃ texts, members.mapM (child view) = .ok texts :=
      exists_mapM_ok (h view)
    exact ⟨_, by rw [typeText, htexts]; rfl⟩
  | synonym item => exact h view item List.mem_cons_self
  | optional item =>
    obtain ⟨text, htext⟩ := h view item List.mem_cons_self
    exact ⟨_, by rw [typeText, htext]; rfl⟩
  | _ item =>
    obtain ⟨text, htext⟩ := h .owned item List.mem_cons_self
    exact ⟨_, by rw [typeText, htext]; rfl⟩

namespace Registry

theorem children_subset_ids {i : TypeId} (hi : i ∈ b.children) : i ∈ b.ids :=
  List.mem_append_left _ hi

/-- In a well formed registry a type is written by its name or by its parts, whatever their ids. -/
theorem WellFormed.typeTextWith_eq (h : r.WellFormed) (qualifier : String) (view : View)
    (id : TypeId) :
    r.typeTextWith qualifier view id = (do
      let e ← r.entry id
      match e.name with
      | some name => return qualifier ++ name
      | none => e.body.typeText (r.typeTextWith qualifier) view) := by
  rw [typeTextWith, entry]
  cases he : r.entries[id]? with
  | none => rfl
  | some e =>
    cases hname : e.name with
    | some name => simp [bind, Except.bind, hname]
    | none =>
      simp only [bind, Except.bind, hname]
      -- The guard that ends the recursion holds of all types in a type without a name.
      exact Body.typeText_congr fun view i hi =>
        if_pos (h.older he hname i (children_subset_ids hi))

theorem WellFormed.needsName_eq_false (h : r.WellFormed) {e : Entry} (he : r.entries[id]? = some e)
    (hname : e.name = none) : e.body.needsName = false := by
  by_contra hneeds
  have hsome := h.named he (by simpa using hneeds)
  simp [hname] at hsome

theorem WellFormed.typeTextWith_ok (h : r.WellFormed) (qualifier : String) (view : View)
    (hid : id < r.entries.size) : ∃ text, r.typeTextWith qualifier view id = .ok text := by
  -- The types in a type without a name are before it; a type with a name is not looked into.
  induction id using Nat.strongRecOn generalizing view with
  | ind id ih =>
    have he := Array.getElem?_eq_getElem hid
    rw [h.typeTextWith_eq, entry, he]
    simp only [bind, Except.bind]
    cases hname : r.entries[id].name with
    | some name => exact ⟨_, rfl⟩
    | none =>
      refine Body.typeText_ok (h.needsName_eq_false he hname) fun view i hi => ?_
      have hlt := h.older he hname i (children_subset_ids hi)
      exact ih i hlt view (Nat.lt_trans hlt hid)

end Registry

private theorem Body.exists_item (h : b.kind ∈ [Kind.array, .map, .optional, .synonym]) :
    ∃ item, b.item? = some item ∧ item ∈ b.ids := by
  cases b with
  | array item | map item | optional item | synonym item =>
    exact ⟨item, rfl, List.mem_append_left _ List.mem_cons_self⟩
  | _ => simp [kind] at h

/-- After all calls, successful or not, the registry is well formed. Every type in it can be
written, by its name or by its parts, and the writing ends though types may refer to themselves. -/
theorem history_renders (document : Value) (calls : List Call) :
    let r := Registry.history document calls
    r.WellFormed ∧
      (∀ (id : TypeId) (e : Entry), r.entries[id]? = some e →
        e.body.kind ∈ [Kind.array, .map, .optional, .synonym] →
          ∃ item, e.body.item? = some item ∧ item < r.entries.size) ∧
      (∀ (modelsModule : Value) (view : View) (id : TypeId), id < r.entries.size →
        ∃ text, r.typeText modelsModule view id = .ok text) ∧
      ∀ (qualifier : String) (view : View) (id : TypeId),
        r.typeTextWith qualifier view id = (do
          let e ← r.entry id
          match e.name with
          | some name => return qualifier ++ name
          | none => e.body.typeText (r.typeTextWith qualifier) view) := by
  intro r
  have h : r.WellFormed := history_wellFormed document calls
  refine ⟨h, fun id e he hkind => ?_, fun modelsModule view id hid => h.typeTextWith_ok _ view hid,
    h.typeTextWith_eq⟩
  obtain ⟨item, hitem, hmem⟩ := Body.exists_item hkind
  exact ⟨item, hitem, h.ids he item hmem⟩

end OpenApiClient.Schema

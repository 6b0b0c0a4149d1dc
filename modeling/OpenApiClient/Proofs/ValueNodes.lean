import OpenApiClient.Document.Pointer
import Mathlib.Data.List.Basic

/-! # The values within a value

A value has finitely many nodes, no more than its weight. Each of them weighs no more than the
whole, and what a pointer leads to is one of them. -/
namespace OpenApiClient.Value

/-- Induction over a value by its items and the values of its members. -/
@[induction_eliminator]
theorem induct {P : Value → Prop} (scalar : ∀ s, P (.scalar s))
    (sequence : ∀ items, (∀ v ∈ items, P v) → P (.sequence items))
    (mapping : ∀ members, (∀ m ∈ members, P m.2) → P (.mapping members)) (v : Value) : P v :=
  @Value.rec P (fun items => ∀ v ∈ items, P v) (fun members => ∀ m ∈ members, P m.2)
    (fun m => P m.2) scalar sequence mapping (by simp)
    (fun _ _ hv hrest => List.forall_mem_cons.mpr ⟨hv, hrest⟩) (by simp)
    (fun _ _ hm hrest => List.forall_mem_cons.mpr ⟨hm, hrest⟩) (fun _ _ hv => hv) v

mutual

/-- The value and all values within it. -/
def nodes : Value → List Value
  | .scalar s => [.scalar s]
  | .sequence items => .sequence items :: nodesItems items
  | .mapping members => .mapping members :: nodesMembers members

def nodesItems : List Value → List Value
  | [] => []
  | v :: rest => nodes v ++ nodesItems rest

def nodesMembers : List (Scalar × Value) → List Value
  | [] => []
  | (_, v) :: rest => nodes v ++ nodesMembers rest

end

private theorem mem_nodesItems {x : Value} {items : List Value} :
    x ∈ nodesItems items ↔ ∃ v ∈ items, x ∈ v.nodes := by
  induction items with
  | nil => simp [nodesItems]
  | cons v rest ih => simp [nodesItems, ih]

private theorem mem_nodesMembers {x : Value} {members : Members} :
    x ∈ nodesMembers members ↔ ∃ m ∈ members, x ∈ m.2.nodes := by
  induction members with
  | nil => simp [nodesMembers]
  | cons m rest ih => simp [nodesMembers, ih]

@[simp] theorem mem_nodes_scalar {x : Value} {s : Scalar} :
    x ∈ (Value.scalar s).nodes ↔ x = .scalar s := by
  simp [nodes]

theorem mem_nodes_sequence {x : Value} {items : List Value} :
    x ∈ (Value.sequence items).nodes ↔ x = .sequence items ∨ ∃ v ∈ items, x ∈ v.nodes := by
  simp [nodes, mem_nodesItems]

theorem mem_nodes_mapping {x : Value} {members : Members} :
    x ∈ (Value.mapping members).nodes ↔ x = .mapping members ∨ ∃ m ∈ members, x ∈ m.2.nodes := by
  simp [nodes, mem_nodesMembers]

@[simp] theorem mem_nodes_self (v : Value) : v ∈ v.nodes := by
  cases v <;> simp [nodes]

theorem nodes_subset {v w : Value} (h : w ∈ v.nodes) : w.nodes ⊆ v.nodes := by
  induction v with
  | scalar s =>
    obtain rfl := mem_nodes_scalar.mp h
    exact fun _ hx => hx
  | sequence items ih =>
    rcases mem_nodes_sequence.mp h with rfl | ⟨v, hv, hw⟩
    · exact fun _ hx => hx
    · exact fun x hx => mem_nodes_sequence.mpr (.inr ⟨v, hv, ih v hv hw hx⟩)
  | mapping members ih =>
    rcases mem_nodes_mapping.mp h with rfl | ⟨m, hm, hw⟩
    · exact fun _ hx => hx
    · exact fun x hx => mem_nodes_mapping.mpr (.inr ⟨m, hm, ih m hm hw hx⟩)

theorem weight_le_weightItems {v : Value} {items : List Value} (h : v ∈ items) :
    v.weight ≤ weightItems items := by
  induction items with
  | nil => simp at h
  | cons w rest ih =>
    rw [weightItems]
    rcases List.mem_cons.mp h with rfl | h
    · omega
    · have := ih h
      omega

theorem weight_lt_weightMembers {m : Scalar × Value} {members : Members} (h : m ∈ members) :
    m.2.weight < weightMembers members := by
  induction members with
  | nil => simp at h
  | cons w rest ih =>
    rw [weightMembers]
    rcases List.mem_cons.mp h with rfl | h
    · omega
    · have := ih h
      omega

theorem weight_le_of_mem_nodes {v w : Value} (h : w ∈ v.nodes) : w.weight ≤ v.weight := by
  induction v with
  | scalar s =>
    obtain rfl := mem_nodes_scalar.mp h
    exact Nat.le_refl _
  | sequence items ih =>
    rcases mem_nodes_sequence.mp h with rfl | ⟨v, hv, hw⟩
    · exact Nat.le_refl _
    · have hle := ih v hv hw
      have hitem := weight_le_weightItems hv
      simp only [weight]
      omega
  | mapping members ih =>
    rcases mem_nodes_mapping.mp h with rfl | ⟨m, hm, hw⟩
    · exact Nat.le_refl _
    · have hle := ih m hm hw
      have hmember := weight_lt_weightMembers hm
      simp only [weight]
      omega

theorem length_nodes_le (v : Value) : v.nodes.length ≤ v.weight := by
  induction v with
  | scalar s => simp [nodes, weight]
  | sequence items ih =>
    have h : ∀ vs : List Value, (∀ v ∈ vs, v.nodes.length ≤ v.weight) →
        (nodesItems vs).length ≤ weightItems vs := by
      intro vs
      induction vs with
      | nil => simp [nodesItems]
      | cons v rest ih =>
        intro hall
        have hv := hall v List.mem_cons_self
        have hrest := ih fun w hw => hall w (List.mem_cons_of_mem _ hw)
        simp only [nodesItems, weightItems, List.length_append]
        omega
    have := h items ih
    simp only [nodes, weight, List.length_cons]
    omega
  | mapping members ih =>
    have h : ∀ ms : Members, (∀ m ∈ ms, m.2.nodes.length ≤ m.2.weight) →
        (nodesMembers ms).length ≤ weightMembers ms := by
      intro ms
      induction ms with
      | nil => simp [nodesMembers]
      | cons m rest ih =>
        intro hall
        have hm := hall m List.mem_cons_self
        have hrest := ih fun w hw => hall w (List.mem_cons_of_mem _ hw)
        simp only [nodesMembers, weightMembers, List.length_append]
        omega
    have := h members ih
    simp only [nodes, weight, List.length_cons]
    omega

/-- The values under a key in all mappings within a value. -/
def held (key : String) (v : Value) : List Value :=
  v.nodes.filterMap fun
    | .mapping members => Members.get? members key
    | _ => none

theorem mem_held {key : String} {v x : Value} :
    x ∈ v.held key ↔ ∃ members, .mapping members ∈ v.nodes ∧ Members.get? members key = some x := by
  simp only [held, List.mem_filterMap]
  constructor
  · rintro ⟨w, hw, hx⟩
    cases w with
    | mapping members => exact ⟨members, hw, hx⟩
    | scalar s => simp at hx
    | sequence items => simp at hx
  · rintro ⟨members, hm, hx⟩
    exact ⟨_, hm, hx⟩

theorem held_subset {key : String} {v w : Value} (h : w ∈ v.nodes) : w.held key ⊆ v.held key := by
  intro x hx
  obtain ⟨members, hm, hx⟩ := mem_held.mp hx
  exact mem_held.mpr ⟨members, nodes_subset h hm, hx⟩

theorem length_held_le (key : String) (v : Value) : (v.held key).length ≤ v.weight :=
  Nat.le_trans (List.length_filterMap_le _ _) (length_nodes_le v)

theorem mem_held_mapping {key : String} {members : Members} {x : Value} :
    x ∈ (Value.mapping members).held key ↔
      Members.get? members key = some x ∨ ∃ m ∈ members, x ∈ m.2.held key := by
  simp only [mem_held, mem_nodes_mapping, mapping.injEq]
  constructor
  · rintro ⟨ms, rfl | ⟨m, hm, hn⟩, hx⟩
    · exact .inl hx
    · exact .inr ⟨m, hm, ms, hn, hx⟩
  · rintro (hx | ⟨m, hm, ms, hn, hx⟩)
    · exact ⟨members, .inl rfl, hx⟩
    · exact ⟨ms, .inr ⟨m, hm, hn⟩, hx⟩

theorem mem_held_sequence {key : String} {items : List Value} {x : Value} :
    x ∈ (Value.sequence items).held key ↔ ∃ v ∈ items, x ∈ v.held key := by
  simp only [mem_held, mem_nodes_sequence]
  constructor
  · rintro ⟨ms, hms | ⟨v, hv, hn⟩, hx⟩
    · cases hms
    · exact ⟨v, hv, ms, hn, hx⟩
  · rintro ⟨v, hv, ms, hn, hx⟩
    exact ⟨ms, .inr ⟨v, hv, hn⟩, hx⟩

@[simp] theorem held_scalar (key : String) (s : Scalar) : (Value.scalar s).held key = [] := by
  simp [held, nodes]

private theorem mem_of_at?_eq_some {members : Members} {key : Scalar} {v : Value}
    (h : Members.at? members key = some v) : ∃ m ∈ members, m.1.sameKey key ∧ m.2 = v := by
  obtain ⟨m, hm, rfl⟩ := Option.map_eq_some_iff.mp h
  have hkey := List.find?_some hm
  exact ⟨m, List.mem_of_find?_eq_some hm, hkey, rfl⟩

theorem mem_of_get?_eq_some {members : Members} {key : String} {v : Value}
    (h : Members.get? members key = some v) : (.text key, v) ∈ members := by
  obtain ⟨⟨k, w⟩, hm, hk, rfl⟩ := mem_of_at?_eq_some h
  obtain rfl := Scalar.sameKey_text_iff.mp hk
  exact hm

private theorem step_mem_nodes {v w : Value} {part : String} (h : Pointer.step v part = .ok w) :
    w ∈ v.nodes := by
  cases v with
  | scalar s => simp [Pointer.step] at h
  | sequence items =>
    simp only [Pointer.step] at h
    split at h
    · cases h
    · split at h
      · cases h
      · split at h
        · rename_i i _ u hu
          cases h
          have hmem : w ∈ items := List.mem_of_getElem? hu
          exact mem_nodes_sequence.mpr (.inr ⟨w, hmem, mem_nodes_self w⟩)
        · cases h
  | mapping members =>
    simp only [Pointer.step] at h
    split at h
    · rename_i u hu
      cases h
      exact mem_nodes_mapping.mpr (.inr ⟨_, mem_of_get?_eq_some hu, mem_nodes_self w⟩)
    · cases h

theorem resolve_mem_nodes {document v : Value} {reference : String}
    (h : document.resolve reference = .ok v) : v ∈ document.nodes := by
  unfold resolve at h
  split at h
  · cases h
  · rename_i steps _
    clear * - h
    induction steps generalizing document with
    | nil =>
      cases h
      exact mem_nodes_self v
    | cons part rest ih =>
      simp only [List.foldlM_cons] at h
      cases hs : Pointer.step document part with
      | error e => simp [hs, bind, Except.bind] at h
      | ok w =>
        simp only [hs, bind, Except.bind] at h
        exact nodes_subset (step_mem_nodes hs) (ih h)

end OpenApiClient.Value

import OpenApiClient.Proofs.Looks
import OpenApiClient.Proofs.MemberLookups
import OpenApiClient.Proofs.WrittenValues
import OpenApiClient.Schema.Shape

/-! # Schemas of one form

The form of a schema is its shape with all members sorted. Schemas with one structural key have one
form, and then they agree under every key that does not document them. -/
namespace OpenApiClient

namespace Members

theorem insertSorted_perm {m : Scalar × Value} {ms ns : Members} (h : insertSorted m ms = .ok ns) :
    ns.Perm (m :: ms) := by
  induction ms generalizing ns with
  | nil =>
    cases h
    exact .refl _
  | cons n rest ih =>
    simp only [insertSorted] at h
    split at h
    · cases h
    · cases h
      exact .refl _
    · cases hrest : insertSorted m rest with
      | error fault => simp [hrest, Except.map] at h
      | ok others =>
        simp only [hrest, Except.map, Except.ok.injEq] at h
        exact h ▸ ((ih hrest).cons n).trans (.swap m n rest)

theorem sorted_perm {ms ns : Members} (h : sorted ms = .ok ns) : ns.Perm ms := by
  induction ms generalizing ns with
  | nil =>
    cases h
    exact .refl _
  | cons m rest ih =>
    obtain ⟨others, hothers, h⟩ := except_bind_ok_iff.mp h
    exact (insertSorted_perm h).trans ((ih hothers).cons m)

theorem sorted_of_text {ms : Members} (h : ∀ m ∈ ms, ∃ key, m.1 = .text key) :
    ∃ ns, sorted ms = .ok ns := by
  have hinsert : ∀ {m : Scalar × Value} {ms : Members}, (∃ key, m.1 = .text key) →
      (∀ n ∈ ms, ∃ key, n.1 = .text key) → ∃ ns, insertSorted m ms = .ok ns := by
    rintro ⟨_, v⟩ ms ⟨key, rfl⟩ hms
    induction ms with
    | nil => exact ⟨_, rfl⟩
    | cons n rest ih =>
      obtain ⟨hn, hrest⟩ := List.forall_mem_cons.mp hms
      obtain ⟨text, htext⟩ := hn
      obtain ⟨others, hothers⟩ := ih hrest
      by_cases hle : key ≤ text
      · exact ⟨(.text key, v) :: n :: rest, by
          simp only [insertSorted, htext, Scalar.keyLe?, hle, decide_true]⟩
      · exact ⟨n :: others, by
          simp only [insertSorted, htext, Scalar.keyLe?, hle, decide_false, hothers, Except.map]⟩
  induction ms with
  | nil => exact ⟨[], rfl⟩
  | cons m rest ih =>
    obtain ⟨hm, hrest⟩ := List.forall_mem_cons.mp h
    obtain ⟨others, hothers⟩ := ih hrest
    have htexts : ∀ n ∈ others, ∃ key, n.1 = .text key :=
      fun n hn => hrest n ((sorted_perm hothers).mem_iff.mp hn)
    obtain ⟨ns, hns⟩ := hinsert hm htexts
    exact ⟨ns, except_bind_ok_iff.mpr ⟨others, hothers, hns⟩⟩

theorem get?_eq_some_iff {ms : Members} (hnodup : (ms.map Prod.fst).Nodup) {key : String}
    {v : Value} : get? ms key = some v ↔ (.text key, v) ∈ ms := by
  refine ⟨Value.mem_of_get?_eq_some, fun h => ?_⟩
  induction ms with
  | nil => simp at h
  | cons m rest ih =>
    obtain ⟨k, w⟩ := m
    obtain ⟨hnew, hrest⟩ := List.nodup_cons.mp hnodup
    rw [get?_cons]
    rcases List.mem_cons.mp h with heq | hmem
    · obtain ⟨rfl, rfl⟩ := Prod.mk.inj heq
      rw [if_pos rfl]
    · have hne : k ≠ .text key := by
        rintro rfl
        exact hnew (List.mem_map.mpr ⟨_, hmem, rfl⟩)
      rw [if_neg hne]
      exact ih hrest hmem

private theorem get?_insertSorted {m : Scalar × Value} {ms ns : Members}
    (h : insertSorted m ms = .ok ns)
    (key : String) : get? ns key = get? (m :: ms) key := by
  induction ms generalizing ns with
  | nil =>
    cases h
    rfl
  | cons n rest ih =>
    simp only [insertSorted] at h
    split at h
    · cases h
    · cases h
      rfl
    · rename_i hlater
      obtain ⟨others, hothers, rfl⟩ := except_map_ok_iff.mp h
      -- What is passed over has a smaller key, and so another one.
      have hne : ¬ (m.1 = .text key ∧ n.1 = .text key) := by
        rintro ⟨hm, hn⟩
        simp [hm, hn, Scalar.keyLe?] at hlater
      rw [get?_cons, ih hothers, get?_cons, get?_cons, get?_cons]
      by_cases hm : m.1 = .text key
      · rw [if_neg fun hn => hne ⟨hm, hn⟩, if_pos hm, if_pos hm]
      · rw [if_neg hm, if_neg hm]

/-- Sorting keeps the order of equal keys, so that the first one of a key stays the first. -/
theorem get?_sorted {ms ns : Members} (h : sorted ms = .ok ns) (key : String) :
    get? ns key = get? ms key := by
  induction ms generalizing ns with
  | nil =>
    cases h
    rfl
  | cons m rest ih =>
    obtain ⟨others, hothers, h⟩ := except_bind_ok_iff.mp h
    rw [get?_insertSorted h, get?_cons, get?_cons, ih hothers]

end Members

namespace Schema

def form (properties : Bool) (v : Value) : Except Fault Value := (shapeIn properties v).sorted

def isKept (properties named : Bool) (key : Scalar) : Bool :=
  !(!properties && isDocumentationKey key && !(key == .text "title" && named))

def holdsProperties (properties : Bool) (key : Scalar) : Bool :=
  key == .text "properties" && !properties

variable {p : Bool} {v w : Value} {ms ns : Members} {key : String}

theorem shapeMembers_eq (properties named : Bool) (ms : Members) :
    shapeMembers properties named ms =
      (ms.filter fun m => isKept properties named m.1).map fun m =>
        (m.1, shapeIn (holdsProperties properties m.1) m.2) := by
  induction ms with
  | nil => rfl
  | cons m rest ih =>
    obtain ⟨k, v⟩ := m
    rw [shapeMembers, ih, List.filter_cons]
    by_cases hkept : isKept properties named k
    · have hkey := hkept
      simp only [isKept, Bool.not_eq_true', Bool.eq_false_iff] at hkey
      rw [if_neg hkey, if_pos hkept, List.map_cons]
      rfl
    · have hkey := hkept
      simp only [isKept, Bool.not_eq_true', Bool.not_eq_false] at hkey
      rw [if_pos hkey, if_neg hkept]

theorem sortedMembers_eq (ms : Members) :
    Value.sortedMembers ms = ms.mapM fun m => m.2.sorted.map (m.1, ·) := by
  induction ms with
  | nil => rfl
  | cons m rest ih =>
    obtain ⟨k, v⟩ := m
    rw [Value.sortedMembers, ih, List.mapM_cons]
    cases v.sorted with
    | error fault => rfl
    | ok w => cases rest.mapM fun m => m.2.sorted.map (m.1, ·) <;> rfl

@[simp] theorem form_scalar (p : Bool) (s : Scalar) : form p (.scalar s) = .ok (.scalar s) := rfl

theorem form_sequence (p : Bool) (items : List Value) :
    form p (.sequence items) = (items.mapM (form false)).map .sequence := by
  have hitems : Value.sortedItems (shapeItems items) = items.mapM (form false) := by
    induction items with
    | nil => rfl
    | cons v rest ih =>
      rw [shapeItems, Value.sortedItems, ih, List.mapM_cons, form]
      cases (shapeIn false v).sorted with
      | error fault => rfl
      | ok w => cases rest.mapM (form false) <;> rfl
  rw [form, shapeIn, Value.sorted, hitems]

/-- The members of the form of a mapping, before they are sorted. -/
theorem form_mapping_ok_iff :
    form p (.mapping ms) = .ok w ↔ ∃ vs ws,
      List.Forall₂ (fun m n => n.1 = m.1 ∧ form (holdsProperties p m.1) m.2 = .ok n.2)
        (ms.filter fun m => isKept p (namesModel ms) m.1) vs ∧
      Members.sorted vs = .ok ws ∧ w = .mapping ws := by
  have hmember : ∀ {m n : Scalar × Value},
      (m.2.sorted.map (m.1, ·) : Except Fault (Scalar × Value)) = .ok n ↔
        n.1 = m.1 ∧ m.2.sorted = .ok n.2 := by
    rintro ⟨k, v⟩ ⟨l, u⟩
    cases v.sorted <;> simp [Except.map, eq_comm]
  simp only [form, shapeIn, Value.sorted, shapeMembers_eq, sortedMembers_eq, except_bind_ok_iff,
    mapM_ok_iff_forall₂, List.forall₂_map_left_iff, hmember]
  constructor
  · rintro ⟨vs, hvs, h⟩
    cases hws : Members.sorted vs with
    | error fault => simp [hws, Except.map] at h
    | ok ws =>
      simp only [hws, Except.map, Except.ok.injEq] at h
      exact ⟨vs, ws, hvs, hws, h.symm⟩
  · rintro ⟨vs, ws, hvs, hws, rfl⟩
    exact ⟨vs, hvs, by simp [hws, Except.map]⟩

theorem forall₂_keys {f : Scalar × Value → Scalar × Value → Prop} {ms vs : Members}
    (h : List.Forall₂ (fun m n => n.1 = m.1 ∧ f m n) ms vs) :
    vs.map Prod.fst = ms.map Prod.fst := by
  induction h with
  | nil => rfl
  | cons hm _ ih => rw [List.map_cons, List.map_cons, ih, hm.1]

/-- Every value in JSON has a form, which is in JSON again. -/
theorem form_of_isJson (p : Bool) (hv : v.IsJson) : ∃ w, form p v = .ok w ∧ w.IsJson := by
  induction v generalizing p with
  | scalar s => exact ⟨_, rfl, hv⟩
  | sequence items ih =>
    have hitems := Value.isJson_sequence_iff.mp hv
    obtain ⟨ws, hws⟩ := exists_forall₂ fun x hx => ih x hx false (hitems x hx)
    refine ⟨.sequence ws, ?_, Value.isJson_sequence_iff.mpr fun w hw => ?_⟩
    · rw [form_sequence, mapM_ok_iff_forall₂.mpr (hws.imp fun _ _ h => h.1)]
      rfl
    · obtain ⟨x, -, -, hjson⟩ := (exists_of_forall₂ hws).2 w hw
      exact hjson
  | mapping ms ih =>
    obtain ⟨htext, hnodup, hms⟩ := Value.isJson_mapping_iff.mp hv
    have hform : ∀ m ∈ ms.filter fun m => isKept p (namesModel ms) m.1, ∃ n : Scalar × Value,
        (n.1 = m.1 ∧ form (holdsProperties p m.1) m.2 = .ok n.2) ∧ n.2.IsJson := by
      intro m hmem
      have hm : m ∈ ms := List.mem_of_mem_filter hmem
      obtain ⟨w, hw, hjson⟩ := ih m hm (holdsProperties p m.1) (hms m hm)
      exact ⟨(m.1, w), ⟨rfl, hw⟩, hjson⟩
    obtain ⟨vs, hforms⟩ := exists_forall₂ hform
    have hvs := hforms.imp fun _ _ h => h.1
    have hkeys := forall₂_keys hvs
    have hsublist : (ms.filter fun m => isKept p (namesModel ms) m.1).Sublist ms :=
      List.filter_sublist
    have hvsText : ∀ n ∈ vs, ∃ key, n.1 = .text key := by
      intro n hn
      have hkey : n.1 ∈ vs.map Prod.fst := List.mem_map_of_mem hn
      rw [hkeys] at hkey
      obtain ⟨m, hm, hmkey⟩ := List.mem_map.mp hkey
      exact hmkey ▸ htext m (List.mem_of_mem_filter hm)
    have hvsNodup : (vs.map Prod.fst).Nodup := hkeys ▸ (hsublist.map _).nodup hnodup
    obtain ⟨ws, hws⟩ := Members.sorted_of_text hvsText
    have hperm := Members.sorted_perm hws
    refine ⟨.mapping ws, form_mapping_ok_iff.mpr ⟨vs, ws, hvs, hws, rfl⟩,
      Value.isJson_mapping_iff.mpr ⟨?_, ?_, ?_⟩⟩
    · exact fun m hm => hvsText m (hperm.mem_iff.mp hm)
    · exact (hperm.map _).nodup_iff.mpr hvsNodup
    · intro n hn
      obtain ⟨m, -, -, hjson⟩ := (exists_of_forall₂ hforms).2 n (hperm.mem_iff.mp hn)
      exact hjson

theorem get?_form (h : form p (.mapping ms) = .ok w) :
    ∃ ws, w = .mapping ws ∧ ∀ key, isKept p (namesModel ms) (.text key) →
      (Members.get? ms key).map (form (holdsProperties p (.text key))) =
        (Members.get? ws key).map .ok := by
  obtain ⟨vs, ws, hvs, hws, rfl⟩ := form_mapping_ok_iff.mp h
  refine ⟨ws, rfl, fun key hkept => ?_⟩
  rw [Members.get?_sorted hws]
  clear hws h
  generalize namesModel ms = named at hvs hkept
  induction ms generalizing vs with
  | nil =>
    cases hvs
    rfl
  | cons m rest ih =>
    obtain ⟨k, v⟩ := m
    rw [List.filter_cons] at hvs
    split at hvs
    · obtain ⟨⟨l, u⟩, others, ⟨hl, hu⟩, hothers, rfl⟩ := List.forall₂_cons_left_iff.mp hvs
      dsimp only at hl hu
      subst hl
      rw [Members.get?_cons, Members.get?_cons]
      by_cases hkey : l = .text key
      · rw [if_pos hkey, if_pos hkey, Option.map_some, Option.map_some, ← hkey, hu]
      · rw [if_neg hkey, if_neg hkey]
        exact ih _ hothers
    · rename_i hk
      have hne : k ≠ .text key := by
        rintro rfl
        exact hk hkept
      rw [Members.get?_cons, if_neg hne]
      exact ih _ hvs

theorem eq_of_form_scalar {s : Scalar} (h : form p (.scalar s) = form p v) : v = .scalar s := by
  rw [form_scalar] at h
  cases v with
  | scalar t => exact (Except.ok.inj h).symm
  | sequence items =>
    rw [form_sequence] at h
    cases hitems : items.mapM (form false) <;> simp [hitems, Except.map] at h
  | mapping ns =>
    obtain ⟨_, _, -, -, hw⟩ := form_mapping_ok_iff.mp h.symm
    cases hw

abbrev SameForms (items others : List Value) : Prop :=
  List.Forall₂ (fun v w => form false v = form false w) items others

theorem sequence_of_form {items : List Value} (hitems : (Value.sequence items).IsJson)
    (h : form p (.sequence items) = form p v) :
    ∃ others, v = .sequence others ∧ SameForms items others := by
  obtain ⟨w, hw, -⟩ := form_of_isJson p hitems
  have hv := h.symm.trans hw
  rw [form_sequence] at hw
  cases hxs : items.mapM (form false) with
  | error fault => simp [hxs, Except.map] at hw
  | ok xs =>
    simp only [hxs, Except.map, Except.ok.injEq] at hw
    subst hw
    cases v with
    | scalar t => simp at hv
    | mapping ns =>
      obtain ⟨_, _, -, -, hw⟩ := form_mapping_ok_iff.mp hv
      cases hw
    | sequence others =>
      refine ⟨others, rfl, ?_⟩
      rw [form_sequence] at hv
      cases hys : others.mapM (form false) with
      | error fault => simp [hys, Except.map] at hv
      | ok ys =>
        simp only [hys, Except.map, Except.ok.injEq, Value.sequence.injEq] at hv
        subst hv
        have hleft := mapM_ok_iff_forall₂.mp hxs
        have hright := mapM_ok_iff_forall₂.mp hys
        clear h hxs hys hitems
        induction hleft generalizing others with
        | nil =>
          cases hright
          exact .nil
        | cons hx _ ih =>
          obtain ⟨y, rest, hy, hrest, rfl⟩ := List.forall₂_cons_right_iff.mp hright
          exact .cons (hx.trans hy.symm) (ih rest hrest)

theorem mapping_of_form (hms : (Value.mapping ms).IsJson) (h : form p (.mapping ms) = form p v) :
    ∃ ns, v = .mapping ns := by
  obtain ⟨w, hw, -⟩ := form_of_isJson p hms
  obtain ⟨ws, rfl, -⟩ := get?_form hw
  cases v with
  | scalar t => simp [hw] at h
  | sequence items =>
    rw [hw, form_sequence] at h
    cases hitems : items.mapM (form false) <;> simp [hitems, Except.map] at h
  | mapping ns => exact ⟨ns, rfl⟩

theorem isKept_of_not_documentation {named : Bool} (hkey : key ∉ documentationKeys) :
    isKept false named (.text key) := by
  simp [isKept, isDocumentationKey, hkey]

/-- Mappings of one form agree under the keys that stay in both. -/
theorem get?_of_form (hms : (Value.mapping ms).IsJson)
    (h : form p (.mapping ms) = form p (.mapping ns))
    (hleft : isKept p (namesModel ms) (.text key)) (hright : isKept p (namesModel ns) (.text key)) :
    (Members.get? ms key).map (form (holdsProperties p (.text key))) =
      (Members.get? ns key).map (form (holdsProperties p (.text key))) := by
  obtain ⟨w, hw, -⟩ := form_of_isJson p hms
  obtain ⟨ws, rfl, hws⟩ := get?_form hw
  obtain ⟨ws', heq, hws'⟩ := get?_form (h.symm.trans hw)
  obtain rfl := Value.mapping.inj heq
  exact (hws key hleft).trans (hws' key hright).symm

theorem structuralKey_eq (v : Value) : structuralKey v = (form false v).map Value.written := rfl

/-- Schemas with one structural key have one form. -/
theorem form_of_structuralKey (hv : v.IsJson) (hw : w.IsJson)
    (h : structuralKey v = structuralKey w) : form false v = form false w := by
  obtain ⟨x, hx, hxJson⟩ := form_of_isJson false hv
  obtain ⟨y, hy, hyJson⟩ := form_of_isJson false hw
  simp only [structuralKey_eq, hx, hy, Except.map, Except.ok.injEq] at h
  rw [hx, hy, Value.written_injective hxJson hyJson h]

theorem structuralKey_of_form (h : form false v = form false w) :
    structuralKey v = structuralKey w := by
  rw [structuralKey_eq, structuralKey_eq, h]

end Schema

end OpenApiClient

import OpenApiClient.Proofs.SameTypes
import Mathlib.Data.List.Perm.Subperm

/-! # What stands behind a type

An alias and an optional type have one type behind them, every other type has none. So there is one way
on from each type. It ends at a type that is neither, or comes back to a type that it passed. The walk
that looks for the base of a type takes this way as far as its end, and from a circle it gives back one
of the types of the circle. What is decided by the base depends on the end alone, wherever on the way
the walk begins. -/
namespace OpenApiClient.Schema

open Relation

variable {r s : Registry} {i j k : TypeId} {b : Body}

def Body.behind? : Body → Option TypeId
  | .synonym item | .optional item => some item
  | _ => none

theorem Body.isEnd_iff : b.isEnd ↔ b.behind? = none := by
  cases b <;> simp [isEnd, behind?]

namespace Registry

def Behind (r : Registry) (i j : TypeId) : Prop := (r.body? i).bind Body.behind? = some j

/-- Whether the way on from the first type passes the second one. -/
abbrev LeadsTo (r : Registry) : TypeId → TypeId → Prop := ReflTransGen r.Behind

theorem behind_unique (r : Registry) : Relator.RightUnique r.Behind :=
  fun _ _ _ h h' => Option.some.inj (h.symm.trans h')

theorem lt_of_body? (h : r.body? i = some b) : i < r.entries.size := by
  obtain ⟨e, he, -⟩ := Option.map_eq_some_iff.mp h
  exact (Array.getElem?_eq_some_iff.mp he).1

theorem WellFormed.lt_of_mem_ids (hr : r.WellFormed) (h : r.body? i = some b) (hj : j ∈ b.ids) :
    j < r.entries.size := by
  obtain ⟨e, he, rfl⟩ := Option.map_eq_some_iff.mp h
  exact hr.ids he j hj

theorem Behind.lt_size (h : r.Behind i j) : i < r.entries.size := by
  obtain ⟨b, hb, -⟩ := Option.bind_eq_some_iff.mp h
  exact lt_of_body? hb

theorem not_behind (hb : r.body? i = some b) (hend : b.isEnd) : ¬ r.Behind i j := by
  rw [Behind, hb, Option.bind_some, Body.isEnd_iff.mp hend]
  exact nofun

theorem behind_of_body (hb : r.body? i = some b) (hbehind : b.behind? = some j) :
    r.Behind i j := by
  rw [Behind, hb, Option.bind_some, hbehind]

private theorem baseFrom_succ (fuel : Nat) (seen : List TypeId) (i : TypeId) :
    r.baseFrom (fuel + 1) seen i = if i ∈ seen then i else
      match (r.body? i).bind Body.behind? with
      | some item => r.baseFrom fuel (i :: seen) item
      | none => i := by
  rw [baseFrom, List.contains_eq_mem]
  by_cases hseen : i ∈ seen
  · simp [hseen]
  · cases hb : r.body? i with
    | none => simp [hseen]
    | some b => cases b <;> simp [hseen, Body.behind?]

/-- How a walk goes on from a type when it has passed some types: it stops at one of these and where
nothing stands behind, and otherwise goes on to the type behind. -/
inductive Walk (r : Registry) : List TypeId → TypeId → TypeId → Prop
  | back {seen : List TypeId} {i : TypeId} (h : i ∈ seen) : Walk r seen i i
  | found {seen : List TypeId} {i : TypeId} (hnew : i ∉ seen) (h : ∀ j, ¬ r.Behind i j) :
      Walk r seen i i
  | next {seen : List TypeId} {i j k : TypeId} (hnew : i ∉ seen) (h : r.Behind i j)
      (hrest : Walk r (i :: seen) j k) : Walk r seen i k

/-- A walk ends, since there are not more types to pass than entries. -/
theorem walk_baseFrom (fuel : Nat) (seen : List TypeId) (i : TypeId) (hnodup : seen.Nodup)
    (hseen : ∀ k ∈ seen, k < r.entries.size) (hfuel : r.entries.size < fuel + seen.length) :
    r.Walk seen i (r.baseFrom fuel seen i) := by
  induction fuel generalizing seen i with
  | zero =>
    have hsubset : seen ⊆ List.range r.entries.size := fun k hk => List.mem_range.mpr (hseen k hk)
    have hlength := (List.subperm_of_subset hnodup hsubset).length_le
    rw [List.length_range] at hlength
    omega
  | succ fuel ih =>
    rw [baseFrom_succ]
    by_cases hpassed : i ∈ seen
    · rw [if_pos hpassed]
      exact .back hpassed
    rw [if_neg hpassed]
    cases hitem : (r.body? i).bind Body.behind? with
    | none => exact .found hpassed fun j hj => nomatch hitem.symm.trans hj
    | some item =>
      have hbehind : r.Behind i item := hitem
      have hfuel' : r.entries.size < fuel + (i :: seen).length := by
        rw [List.length_cons]
        omega
      exact .next hpassed hbehind (ih (i :: seen) item (List.nodup_cons.mpr ⟨hpassed, hnodup⟩)
        (List.forall_mem_cons.mpr ⟨hbehind.lt_size, hseen⟩) hfuel')

theorem walk_base (r : Registry) (i : TypeId) : r.Walk [] i (r.base i) :=
  walk_baseFrom _ [] i .nil (by simp) (by simp)

/-- A walk stays on the way on from its start. It stops where nothing stands behind, or on a circle. -/
theorem Walk.stops {seen : List TypeId} (h : r.Walk seen i j)
    (hpassed : ∀ k ∈ seen, TransGen r.Behind k i) :
    r.LeadsTo i j ∧ ((∀ k, ¬ r.Behind j k) ∨ TransGen r.Behind j j) := by
  induction h with
  | back h => exact ⟨.refl, .inr (hpassed _ h)⟩
  | found _ h => exact ⟨.refl, .inl h⟩
  | next _ h _ ih =>
    obtain ⟨hleads, hstop⟩ := ih (List.forall_mem_cons.mpr
      ⟨.single h, fun k hk => (hpassed k hk).tail h⟩)
    exact ⟨.head h hleads, hstop⟩

theorem base_stops (r : Registry) (i : TypeId) : r.LeadsTo i (r.base i) ∧
    ((∀ j, ¬ r.Behind (r.base i) j) ∨ TransGen r.Behind (r.base i) (r.base i)) :=
  (walk_base r i).stops (by simp)

theorem back_of_leadsTo (hcircle : TransGen r.Behind i i) (h : r.LeadsTo i j) :
    TransGen r.Behind j i := by
  induction h with
  | refl => exact hcircle
  | tail _ hbehind ih =>
    obtain ⟨k, hk, hback⟩ := TransGen.head'_iff.mp ih
    obtain rfl := behind_unique r hbehind hk
    exact .trans_right hback hcircle

theorem circle_of_leadsTo (hcircle : TransGen r.Behind i i) (h : r.LeadsTo i j) :
    TransGen r.Behind j j :=
  (back_of_leadsTo hcircle h).trans_left h

/-! ## Ends -/

/-- Whether the way on from a type ends at one with a body, which is neither an alias nor optional. -/
def EndsIn (r : Registry) (i : TypeId) (b : Body) : Prop :=
  ∃ j, r.LeadsTo i j ∧ r.body? j = some b ∧ b.isEnd

def endBody? (r : Registry) (i : TypeId) : Option Body := (r.baseBody? i).filter Body.isEnd

private theorem base_eq_of_leadsTo (h : r.LeadsTo i j) (hb : r.body? j = some b) (hend : b.isEnd) :
    r.base i = j := by
  obtain ⟨hleads, hstop⟩ := base_stops r i
  -- The end is behind the base, since nothing is behind the end.
  have hbehind : r.LeadsTo (r.base i) j := by
    rcases ReflTransGen.total_of_right_unique (behind_unique r) h hleads with hback | hon
    · rcases ReflTransGen.cases_head hback with heq | ⟨_, hnext, -⟩
      · exact heq ▸ .refl
      · exact absurd hnext (not_behind hb hend)
    · exact hon
  rcases hstop with hnone | hcircle
  · rcases ReflTransGen.cases_head hbehind with heq | ⟨k, hnext, -⟩
    · exact heq
    · exact absurd hnext (hnone k)
  · obtain ⟨_, hnext, -⟩ := TransGen.head'_iff.mp (circle_of_leadsTo hcircle hbehind)
    exact absurd hnext (not_behind hb hend)

theorem endBody?_eq_some_iff : r.endBody? i = some b ↔ r.EndsIn i b := by
  rw [endBody?, Option.filter_eq_some_iff, baseBody?]
  constructor
  · rintro ⟨hb, hend⟩
    exact ⟨r.base i, (base_stops r i).1, hb, hend⟩
  · rintro ⟨j, hleads, hb, hend⟩
    rw [base_eq_of_leadsTo hleads hb hend]
    exact ⟨hb, hend⟩

/-- A type has the same end as the type behind it. -/
theorem endsIn_behind (h : r.Behind i j) : r.EndsIn i b ↔ r.EndsIn j b := by
  constructor
  · rintro ⟨k, hleads, hb, hend⟩
    rcases ReflTransGen.cases_head hleads with rfl | ⟨_, hnext, hlater⟩
    · exact absurd h (not_behind hb hend)
    · obtain rfl := behind_unique r h hnext
      exact ⟨k, hlater, hb, hend⟩
  · exact fun ⟨k, hleads, hb, hend⟩ => ⟨k, .head h hleads, hb, hend⟩

theorem endBody?_behind (h : r.Behind i j) : r.endBody? i = r.endBody? j :=
  Option.ext fun b => by rw [endBody?_eq_some_iff, endBody?_eq_some_iff, endsIn_behind h]

theorem WellFormed.behind_lt (hr : r.WellFormed) (h : r.Behind i j) : j < r.entries.size := by
  obtain ⟨b, hb, hbehind⟩ := Option.bind_eq_some_iff.mp h
  refine hr.lt_of_mem_ids hb ?_
  cases b <;> simp_all [Body.behind?, Body.ids, Body.children]

theorem WellFormed.item_lt (hr : r.WellFormed) (h : r.endBody? i = some (.array j)) :
    j < r.entries.size := by
  obtain ⟨k, -, hk, -⟩ := endBody?_eq_some_iff.mp h
  exact hr.lt_of_mem_ids hk (by simp [Body.ids, Body.children])

theorem leadsTo_extends (hr : r.WellFormed) (h : r.Extends s) (hi : i < r.entries.size) :
    s.LeadsTo i j ↔ r.LeadsTo i j ∧ j < r.entries.size := by
  have hbehind : ∀ {i j}, i < r.entries.size → (s.Behind i j ↔ r.Behind i j) := fun hi => by
    rw [Behind, Behind, h.body? hi]
  constructor
  · intro hleads
    induction hleads with
    | refl => exact ⟨.refl, hi⟩
    | tail _ hnext ih =>
      have hnext := (hbehind ih.2).mp hnext
      exact ⟨ih.1.tail hnext, hr.behind_lt hnext⟩
  · rintro ⟨hleads, -⟩
    induction hleads with
    | refl => exact .refl
    | tail _ hnext ih => exact ih.tail ((hbehind hnext.lt_size).mpr hnext)

theorem endBody?_extends (hr : r.WellFormed) (h : r.Extends s) (hi : i < r.entries.size) :
    s.endBody? i = r.endBody? i := by
  refine Option.ext fun b => ?_
  rw [endBody?_eq_some_iff, endBody?_eq_some_iff]
  constructor
  · rintro ⟨j, hleads, hb, hend⟩
    obtain ⟨hleads, hj⟩ := (leadsTo_extends hr h hi).mp hleads
    exact ⟨j, hleads, h.body? hj ▸ hb, hend⟩
  · rintro ⟨j, hleads, hb, hend⟩
    have hj := lt_of_body? hb
    exact ⟨j, (leadsTo_extends hr h hi).mpr ⟨hleads, hj⟩, (h.body? hj).trans hb, hend⟩

end Registry

def Kind.isEnd : Kind → Bool
  | .synonym | .optional => false
  | _ => true

theorem Body.isEnd_kind (b : Body) : b.kind.isEnd = b.isEnd := by cases b <;> rfl

theorem Registry.filter_baseKind? (r : Registry) (i : TypeId) :
    (r.baseKind? i).filter Kind.isEnd = (r.endBody? i).map Body.kind := by
  rw [baseKind?, endBody?]
  cases r.baseBody? i with
  | none => rfl
  | some b => cases b <;> rfl

end OpenApiClient.Schema

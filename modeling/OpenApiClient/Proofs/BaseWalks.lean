import OpenApiClient.Proofs.BaseTypes
import Mathlib.Dynamics.PeriodicPts.Defs

/-! # Walks to the base of a type

The walk through aliases and optional types ends in every registry. It gives the first type that is
neither, if it comes to one. Otherwise it has run into a circle of aliases and optional types and gives
the type at which it entered the circle. A walk from a type of a circle goes once around it and comes
back to where it began, so the base of a type is its own base, and what is decided by the base is the
same for both. -/
namespace OpenApiClient.Schema

open Relation

variable {document : Value} {r : Registry} {i j k : TypeId} {seen : List TypeId}

namespace Registry

def OnCircle (r : Registry) (i : TypeId) : Prop := TransGen r.Behind i i

private theorem Walk.unique (h : r.Walk seen i j) (h' : r.Walk seen i k) : j = k := by
  induction h with
  | back h =>
    cases h' with
    | back => rfl
    | found hnew => exact absurd h hnew
    | next hnew => exact absurd h hnew
  | found hnew h =>
    cases h' with
    | back h' => exact absurd h' hnew
    | found => rfl
    | next _ h' => exact absurd h' (h _)
  | next hnew h _ ih =>
    cases h' with
    | back h' => exact absurd h' hnew
    | found _ h' => exact absurd h (h' _)
    | next _ h' hrest =>
      obtain rfl := behind_unique r h h'
      exact ih hrest

theorem Walk.eq_base (h : r.Walk [] i j) : j = r.base i := h.unique (walk_base r i)

/-! ## Around a circle -/

def next (r : Registry) (i : TypeId) : TypeId := ((r.body? i).bind Body.behind?).getD i

theorem Behind.next_eq (h : r.Behind i j) : r.next i = j := by
  rw [next, show (r.body? i).bind Body.behind? = some j from h, Option.getD_some]

private theorem exists_iterate (h : TransGen r.Behind i j) : ∃ n, 0 < n ∧ r.next^[n] i = j := by
  induction h with
  | single h => exact ⟨1, Nat.one_pos, h.next_eq⟩
  | tail _ h ih =>
    obtain ⟨n, -, rfl⟩ := ih
    exact ⟨n + 1, Nat.succ_pos n, by rw [Function.iterate_succ_apply', h.next_eq]⟩

def passed (r : Registry) (i : TypeId) (n : Nat) : List TypeId :=
  ((List.range n).map fun m => r.next^[m] i).reverse

private theorem passed_succ (r : Registry) (i : TypeId) (n : Nat) :
    r.passed i (n + 1) = r.next^[n] i :: r.passed i n := by
  simp [passed, List.range_succ]

namespace OnCircle

private theorem isPeriodic (h : r.OnCircle i) : i ∈ Function.periodicPts r.next := exists_iterate h

theorem behind_next (h : r.OnCircle i) : r.Behind i (r.next i) := by
  obtain ⟨j, hj, -⟩ := TransGen.head'_iff.mp h
  rwa [hj.next_eq]

private theorem iterate (h : r.OnCircle i) (n : Nat) : r.OnCircle (r.next^[n] i) := by
  induction n with
  | zero => exact h
  | succ n ih =>
    rw [Function.iterate_succ_apply']
    exact circle_of_leadsTo ih (.single ih.behind_next)

/-- A walk around a circle goes on until it is back where it began: until then, all types that it
passes are different. -/
theorem walk_iterate (h : r.OnCircle i) {n m : Nat}
    (hn : n + m = Function.minimalPeriod r.next i) :
    r.Walk (r.passed i n) (r.next^[n] i) i := by
  have hpositive : 0 < Function.minimalPeriod r.next i :=
    Function.minimalPeriod_pos_of_mem_periodicPts h.isPeriodic
  induction m generalizing n with
  | zero =>
    obtain rfl : n = Function.minimalPeriod r.next i := hn
    rw [Function.iterate_minimalPeriod]
    refine .back ?_
    rw [passed, List.mem_reverse]
    exact List.mem_map.mpr ⟨0, List.mem_range.mpr hpositive, rfl⟩
  | succ m ih =>
    have hnew : r.next^[n] i ∉ r.passed i n := by
      rw [passed, List.mem_reverse, List.mem_map]
      rintro ⟨l, hl, heq⟩
      have hl := List.mem_range.mp hl
      have hinj := Function.iterate_injOn_Iio_minimalPeriod (f := r.next) (x := i)
      exact absurd (hinj (Set.mem_Iio.mpr (by omega)) (Set.mem_Iio.mpr (by omega)) heq) (by omega)
    have hbehind := (h.iterate n).behind_next
    rw [← Function.iterate_succ_apply' r.next n i] at hbehind
    refine .next hnew hbehind ?_
    rw [← passed_succ]
    exact ih (by omega)

theorem base_eq (h : r.OnCircle i) : r.base i = i :=
  (Walk.eq_base (h.walk_iterate (Nat.zero_add _))).symm

end OnCircle

/-! ## The base -/

private theorem base_base (r : Registry) (i : TypeId) : r.base (r.base i) = r.base i := by
  obtain ⟨-, hnone | hcircle⟩ := base_stops r i
  · exact (Walk.found List.not_mem_nil hnone).eq_base.symm
  · exact OnCircle.base_eq hcircle

/-- A walk that runs into a circle ends on it. -/
theorem base_on_circle (hleads : r.LeadsTo i j) (hcircle : r.OnCircle j) :
    TransGen r.Behind j (r.base i) ∧ TransGen r.Behind (r.base i) j := by
  obtain ⟨hbase, hstop⟩ := base_stops r i
  have hon : r.LeadsTo j (r.base i) := by
    rcases ReflTransGen.total_of_right_unique (behind_unique r) hleads hbase with hon | hback
    · exact hon
    rcases hstop with hnone | hbaseCircle
    · rcases ReflTransGen.cases_head hback with heq | ⟨k, hk, -⟩
      · exact heq ▸ .refl
      · exact absurd hk (hnone k)
    · exact (back_of_leadsTo hbaseCircle hback).to_reflTransGen
  exact ⟨hcircle.trans_left hon, back_of_leadsTo hcircle hon⟩

private theorem WellFormed.lt_of_leadsTo (hr : r.WellFormed) (h : r.LeadsTo i j)
    (hi : i < r.entries.size) : j < r.entries.size := by
  induction h with
  | refl => exact hi
  | tail _ hnext _ => exact hr.behind_lt hnext

/-- The base of a type is an end exactly where the walk to it runs into no circle. -/
theorem isEnd_base_iff {b : Body} (hb : r.body? (r.base i) = some b) :
    b.isEnd ↔ ∀ j, r.LeadsTo i j → ¬ r.OnCircle j := by
  constructor
  · intro hend j hleads hcircle
    obtain ⟨k, hk, -⟩ := TransGen.head'_iff.mp (base_on_circle hleads hcircle).2
    exact not_behind hb hend hk
  · intro hnone
    obtain ⟨hbase, hstop⟩ := base_stops r i
    have hend := hstop.resolve_right (hnone _ hbase)
    refine Body.isEnd_iff.mpr (Option.eq_none_iff_forall_ne_some.mpr fun k hk => ?_)
    exact hend k (behind_of_body hb hk)

end Registry

/-- The walk to the base of a type of any registry ends, at one type. This type is its own base. Its
kind is neither that of an alias nor that of an optional type exactly where the walk runs into no
circle of these; where it runs into one, the base is on this circle. The kind and the items that are
found for a type are those of its base. -/
theorem base_of_history (document : Value) (calls : List Call)
    (hi : i < (Registry.history document calls).entries.size) :
    let r := Registry.history document calls
    r.Walk [] i (r.base i) ∧ (∀ j, r.Walk [] i j → j = r.base i) ∧
      r.base i < r.entries.size ∧ r.base (r.base i) = r.base i ∧
      (∃ kind, (r.body? (r.base i)).map Body.kind = some kind ∧
        (kind.isEnd ↔ ∀ j, r.LeadsTo i j → ¬ r.OnCircle j)) ∧
      (∀ j, r.LeadsTo i j → r.OnCircle j →
        TransGen r.Behind j (r.base i) ∧ TransGen r.Behind (r.base i) j) ∧
      ∀ j, r.Walk [] i j → r.baseKind? j = r.baseKind? i ∧ r.item? j = r.item? i := by
  intro r
  have hbase : r.base i < r.entries.size :=
    (history_wellFormed document calls).lt_of_leadsTo (Registry.base_stops r i).1 hi
  obtain ⟨b, hb⟩ : ∃ b, r.body? (r.base i) = some b := by
    rw [Registry.body?, Array.getElem?_eq_getElem hbase]
    exact ⟨_, rfl⟩
  refine ⟨Registry.walk_base r i, fun j hj => hj.eq_base, hbase, Registry.base_base r i,
    ⟨b.kind, by rw [hb, Option.map_some], ?_⟩, fun j => Registry.base_on_circle, fun j hj => ?_⟩
  · rw [Body.isEnd_kind]
    exact Registry.isEnd_base_iff hb
  · obtain rfl := hj.eq_base
    simp only [Registry.baseKind?, Registry.item?, Registry.baseBody?, Registry.base_base]
    exact ⟨trivial, trivial⟩

/-- A document with two schemas that refer to each other, and a third one that refers to them. -/
def circling : Value :=
  .mapping [(.text "A", .mapping [(.text "$ref", .text "#/B")]),
    (.text "B", .mapping [(.text "$ref", .text "#/C")]),
    (.text "C", .mapping [(.text "$ref", .text "#/B")])]

def circlingCall : Call := ⟨none, .mapping [(.text "$ref", .text "#/A")], false, ""⟩

/-- From outside, the walk enters the circle at the second type and comes back to it. -/
theorem base_of_history_circling :
    let r := Registry.history circling [circlingCall]
    0 < r.entries.size ∧ r.OnCircle 1 ∧ r.Walk [] 0 1 ∧ r.base 1 = 1 ∧
      r.baseKind? 1 = r.baseKind? 0 ∧ (r.body? 1).map Body.kind = some .synonym := by
  intro r
  have hsize : 0 < r.entries.size := by decide
  have hbase : r.base 0 = 1 := by decide
  have hcircle : r.OnCircle 1 := .tail (.single rfl) rfl
  obtain ⟨hwalk, -, -, hidem, -, -, hsame⟩ := base_of_history circling [circlingCall] hsize
  rw [show (Registry.history circling [circlingCall]).base 0 = 1 from hbase] at hwalk hidem
  exact ⟨hsize, hcircle, hwalk, hidem, (hsame 1 hwalk).1, by decide⟩

end OpenApiClient.Schema

import OpenApiClient.Table
import Mathlib.Data.List.Dedup

/-! # The keys of tables

A table made from a list keeps every entry of the list exactly when no key is repeated; then it is the
list as it stands. Sorted by different keys, a list is in strict order, and in the same one however it
was ordered before. -/
namespace OpenApiClient

namespace Table

variable {κ α : Type} [DecidableEq κ]

private theorem mem_keys_set {table : Table κ α} {key other : κ} {value : α} :
    other ∈ (table.set key value).keys ↔ other ∈ table.keys ∨ other = key := by
  rw [keys_set]
  by_cases hkey : key ∈ table.keys
  · rw [if_pos hkey]
    exact ⟨.inl, fun h => h.elim id fun heq => heq ▸ hkey⟩
  · rw [if_neg hkey, List.mem_append, List.mem_singleton]

private theorem mem_keys_ofList {entries : List (κ × α)} {key : κ} :
    key ∈ (ofList entries).keys ↔ key ∈ entries.map Prod.fst := by
  suffices hfold : ∀ table : Table κ α,
      key ∈ (entries.foldl (fun table e => set table e.1 e.2) table).keys ↔
        key ∈ table.keys ∨ key ∈ entries.map Prod.fst from
    (hfold []).trans (or_iff_right (List.not_mem_nil))
  induction entries with
  | nil => simp
  | cons e rest ih =>
    intro table
    rw [List.foldl_cons, ih, mem_keys_set, List.map_cons, List.mem_cons, or_assoc]

private theorem mem_set_self (table : Table κ α) (key : κ) (value : α) :
    (key, value) ∈ table.set key value := by
  unfold set
  split
  · rename_i hkey
    obtain ⟨e, he, heq⟩ := List.mem_map.mp hkey
    exact List.mem_map.mpr ⟨e, he, if_pos heq⟩
  · simp

theorem mem_ofList_concat (entries : List (κ × α)) (e : κ × α) : e ∈ ofList (entries ++ [e]) := by
  rw [ofList, List.foldl_concat]
  exact mem_set_self _ _ _

/-- A table made from a list has an entry for each of the list exactly when no key is repeated. -/
theorem length_ofList_eq_iff {entries : List (κ × α)} :
    (ofList entries).length = entries.length ↔ (entries.map Prod.fst).Nodup := by
  have hperm : (ofList entries).keys.Perm (entries.map Prod.fst).dedup := by
    refine (List.perm_ext_iff_of_nodup (nodup_keys_ofList entries) (List.nodup_dedup _)).mpr ?_
    exact fun key => mem_keys_ofList.trans List.mem_dedup.symm
  have hlength : (ofList entries).length = (entries.map Prod.fst).dedup.length := by
    simpa [keys] using hperm.length_eq
  rw [hlength, ← List.dedup_eq_self]
  refine ⟨fun h => ?_, fun h => by rw [h, List.length_map]⟩
  exact (List.dedup_sublist _).eq_of_length (by simpa using h)

/-- A list without repeated keys is a table as it stands. -/
theorem ofList_eq_self {entries : List (κ × α)} (h : (entries.map Prod.fst).Nodup) :
    ofList entries = entries := by
  suffices hfold : ∀ table : Table κ α, (table ++ entries).keys.Nodup →
      entries.foldl (fun table e => set table e.1 e.2) table = table ++ entries from hfold [] h
  induction entries with
  | nil => simp
  | cons e rest ih =>
    intro table hnodup
    have hnew : e.1 ∉ table.keys := by
      rw [keys, List.map_append, List.map_cons] at hnodup
      exact fun hmem => (List.nodup_append.mp hnodup).2.2 _ hmem _ List.mem_cons_self rfl
    have hset : set table e.1 e.2 = table ++ [e] := by rw [set, if_neg hnew]
    have happend : table ++ e :: rest = (table ++ [e]) ++ rest := by simp
    rw [List.foldl_cons, hset, happend]
    exact ih (List.nodup_cons.mp h).2 _ (happend ▸ hnodup)

end Table

/-! ## Sorting by keys -/

section

variable {α : Type} {key : α → String} {xs ys : List α}

theorem pairwise_mergeSort_key (key : α → String) (xs : List α) :
    (xs.mergeSort fun a b => decide (key a ≤ key b)).Pairwise fun a b => key a ≤ key b := by
  refine (List.pairwise_mergeSort (fun a b c hab hbc => ?_) (fun a b => ?_) xs).imp
    of_decide_eq_true
  · exact decide_eq_true (String.le_trans (of_decide_eq_true hab) (of_decide_eq_true hbc))
  · simpa using String.le_total (key a) (key b)

theorem strict_mergeSort_key (h : (xs.map key).Nodup) :
    ((xs.mergeSort fun a b => decide (key a ≤ key b)).map key).Pairwise (· < ·) := by
  have hnodup : ((xs.mergeSort fun a b => decide (key a ≤ key b)).map key).Nodup :=
    ((List.mergeSort_perm xs _).map key).nodup_iff.mpr h
  refine List.pairwise_map.mpr
    ((pairwise_mergeSort_key key xs).imp₂ (fun a b hab hne => ?_) (List.pairwise_map.mp hnodup))
  exact String.not_le.mp fun hba => hne (String.le_antisymm hab hba)

/-- The order in which different keys are sorted is that of the keys alone. -/
theorem mergeSort_key_eq_of_perm (h : (xs.map key).Nodup) (hperm : xs.Perm ys) :
    (xs.mergeSort fun a b => decide (key a ≤ key b)) =
      ys.mergeSort fun a b => decide (key a ≤ key b) := by
  have hsorted : (xs.mergeSort fun a b => decide (key a ≤ key b)).Perm
      (ys.mergeSort fun a b => decide (key a ≤ key b)) :=
    (List.mergeSort_perm xs _).trans (hperm.trans (List.mergeSort_perm ys _).symm)
  refine hsorted.eq_of_pairwise (fun a b ha hb hab hba => ?_) (pairwise_mergeSort_key key xs)
    (pairwise_mergeSort_key key ys)
  exact List.inj_on_of_nodup_map h (List.mem_mergeSort.mp ha)
    (hperm.mem_iff.mpr (List.mem_mergeSort.mp hb)) (String.le_antisymm hab hba)

end

end OpenApiClient

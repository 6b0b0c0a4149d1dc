/-! # Tables

A table holds one value for each of some keys, in the order in which the keys were first set. -/
namespace OpenApiClient

/-- Values by key. -/
abbrev Table (κ α : Type) := List (κ × α)

namespace Table
variable {κ α : Type}

def keys (table : Table κ α) : List κ := table.map Prod.fst

variable [DecidableEq κ]

/-- The table with a value set: in the place of its key, or at the end for a new key. -/
def set (table : Table κ α) (key : κ) (value : α) : Table κ α :=
  if key ∈ table.keys then table.map fun e => if e.1 = key then (key, value) else e
  else table ++ [(key, value)]

/-- The table of a list, the last value of a key counting. -/
def ofList (entries : List (κ × α)) : Table κ α :=
  entries.foldl (fun table e => set table e.1 e.2) []

def sorted (table : Table String α) : Table String α :=
  table.mergeSort fun a b => decide (a.1 ≤ b.1)

theorem keys_set (table : Table κ α) (key : κ) (value : α) :
    (table.set key value).keys =
      if key ∈ table.keys then table.keys else table.keys ++ [key] := by
  unfold set
  split
  · simp only [keys, List.map_map]
    refine List.map_congr_left fun e _ => ?_
    by_cases h : e.1 = key <;> simp [h]
  · simp [keys]

theorem nodup_keys_set {table : Table κ α} (h : table.keys.Nodup) (key : κ) (value : α) :
    (table.set key value).keys.Nodup := by
  rw [keys_set]
  split
  · exact h
  · rename_i hn
    refine List.nodup_append.mpr ⟨h, by simp, ?_⟩
    intro a ha b hb
    obtain rfl := List.mem_singleton.mp hb
    exact fun hab => hn (hab ▸ ha)

/-- A table made from a list has each key once. -/
theorem nodup_keys_ofList (entries : List (κ × α)) : (ofList entries).keys.Nodup := by
  have h (table : Table κ α) (ht : table.keys.Nodup) :
      (entries.foldl (fun table e => set table e.1 e.2) table).keys.Nodup := by
    induction entries generalizing table with
    | nil => exact ht
    | cons e rest ih => exact ih _ (nodup_keys_set ht _ _)
  exact h [] (by simp [keys])

theorem mem_set {table : Table κ α} {key : κ} {value : α} {e : κ × α}
    (h : e ∈ table.set key value) : e ∈ table ∨ e = (key, value) := by
  unfold set at h
  split at h
  · obtain ⟨old, hold, heq⟩ := List.mem_map.mp h
    split at heq
    · exact .inr heq.symm
    · exact .inl (heq ▸ hold)
  · rcases List.mem_append.mp h with h | h
    · exact .inl h
    · exact .inr (List.mem_singleton.mp h)

/-- A table made from a list holds nothing else. -/
theorem mem_ofList {entries : List (κ × α)} {e : κ × α} (h : e ∈ ofList entries) :
    e ∈ entries := by
  suffices hfold : ∀ table : Table κ α,
      e ∈ entries.foldl (fun table e => set table e.1 e.2) table → e ∈ table ∨ e ∈ entries from
    (hfold [] h).resolve_left (by simp)
  clear h
  induction entries with
  | nil => exact fun table h => .inl h
  | cons first rest ih =>
    intro table h
    rcases ih _ h with h | h
    · rcases mem_set h with h | rfl
      · exact .inl h
      · exact .inr List.mem_cons_self
    · exact .inr (List.mem_cons_of_mem _ h)

end Table

end OpenApiClient

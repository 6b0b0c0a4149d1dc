import OpenApiClient.Proofs.MemberLookups
import Mathlib.Data.List.Induction
import Mathlib.Tactic.Ring

/-! # Setting members one after the other

A member that is set takes the place of the first one of its key, or a new place at the end. So
after many were set each key stands where it came first, with the value that came last; and it is
the same whether the members are set one by one or were put together before. -/
namespace OpenApiClient

/-! ## Keys of one member -/

private theorem scaleBy_pos {base num den n d : Nat} {power : Int} (hbase : 0 < base) (hden : 0 < den)
    (h : scaleBy base power num den = (n, d)) : 0 < d := by
  unfold scaleBy at h
  split at h
  · obtain ⟨-, rfl⟩ := Prod.mk.inj h
    exact hden
  · obtain ⟨-, rfl⟩ := Prod.mk.inj h
    exact Nat.mul_pos hden (Nat.pow_pos hbase)

private theorem Decimal.value?_pos {x : Decimal} {p : Int} {q : Nat} (h : x.value? = some (p, q)) :
    0 < q := by
  unfold Decimal.value? at h
  split at h
  · split at h
    · obtain ⟨-, rfl⟩ := Prod.mk.inj (Option.some.inj h)
      exact Nat.one_pos
    · obtain ⟨b, -, hb⟩ := Option.map_eq_some_iff.mp h
      rw [← (Prod.mk.inj hb).2]
      exact scaleBy_pos Nat.two_pos Nat.one_pos rfl
  · cases h

namespace Scalar

private theorem number?_pos {a : Scalar} {p : Int} {q : Nat} (h : a.number? = some (p, q)) : 0 < q := by
  cases a with
  | bool b => obtain ⟨-, rfl⟩ := Prod.mk.inj (Option.some.inj h); exact Nat.one_pos
  | int n => obtain ⟨-, rfl⟩ := Prod.mk.inj (Option.some.inj h); exact Nat.one_pos
  | decimal d => exact Decimal.value?_pos h
  | null | text _ => cases h

/-- Two keys name the same member when they are equal, or equal as numbers. -/
theorem sameKey_iff {a b : Scalar} : a.sameKey b ↔
    a = b ∨ ∃ p q r s, a.number? = some (p, q) ∧ b.number? = some (r, s) ∧ p * s = r * q := by
  unfold sameKey
  cases a.number? with
  | none => simp
  | some x =>
    cases b.number? with
    | none => simp
    | some y =>
      obtain ⟨p, q⟩ := x
      obtain ⟨r, s⟩ := y
      simp

theorem sameKey_comm (a b : Scalar) : a.sameKey b = b.sameKey a := by
  have hsymm : ∀ {a b : Scalar}, a.sameKey b → b.sameKey a := by
    intro a b h
    rcases sameKey_iff.mp h with rfl | ⟨p, q, r, s, ha, hb, heq⟩
    · exact h
    · exact sameKey_iff.mpr (.inr ⟨r, s, p, q, hb, ha, heq.symm⟩)
  exact Bool.eq_iff_iff.mpr ⟨hsymm, hsymm⟩

theorem sameKey_trans {a b c : Scalar} (hab : a.sameKey b) (hbc : b.sameKey c) : a.sameKey c := by
  rcases sameKey_iff.mp hab with rfl | ⟨p, q, r, s, ha, hb, hpr⟩
  · exact hbc
  rcases sameKey_iff.mp hbc with rfl | ⟨r', s', t, u, hb', hc, hrt⟩
  · exact hab
  obtain ⟨rfl, rfl⟩ := Prod.mk.inj (Option.some.inj (hb.symm.trans hb'))
  refine sameKey_iff.mpr (.inr ⟨p, q, t, u, ha, hc, ?_⟩)
  have hs : (s : Int) ≠ 0 := Int.natCast_ne_zero.mpr (Nat.pos_iff_ne_zero.mp (number?_pos hb))
  refine mul_right_cancel₀ hs ?_
  calc p * u * s = p * s * u := by ring
    _ = r * u * q := by rw [hpr]; ring
    _ = t * q * s := by rw [hrt]; ring

theorem sameKey_congr {a b : Scalar} (h : a.sameKey b) (c : Scalar) : a.sameKey c = b.sameKey c :=
  Bool.eq_iff_iff.mpr ⟨sameKey_trans (sameKey_comm a b ▸ h), sameKey_trans h⟩

end Scalar

namespace Members

variable {ms ns more : Members} {key k : Scalar} {v : Value}

/-! ## What stands under a key -/

theorem at?_congr (ms : Members) {k l : Scalar} (h : k.sameKey l) : at? ms k = at? ms l := by
  have hpred : (fun m : Scalar × Value => m.1.sameKey k) = fun m => m.1.sameKey l := by
    funext m
    rw [Scalar.sameKey_comm m.1, Scalar.sameKey_comm m.1, Scalar.sameKey_congr h]
  rw [at?, at?, hpred]

theorem at?_cons (m : Scalar × Value) (rest : Members) (key : Scalar) :
    at? (m :: rest) key = if m.1.sameKey key then some m.2 else at? rest key := by
  by_cases h : m.1.sameKey key <;> simp [at?, h]

theorem at?_append (ms more : Members) (key : Scalar) :
    at? (ms ++ more) key = (at? ms key).or (at? more key) := by
  simp only [at?, List.find?_append, Option.map_or]

theorem at?_isSome_iff : (at? ms key).isSome ↔ ms.any fun m => m.1.sameKey key := by
  simp [at?]

private theorem at?_replace (ms : Members) (key k : Scalar) (v : Value) :
    at? (ms.map fun m => if m.1.sameKey key then (m.1, v) else m) k =
      if key.sameKey k then (at? ms key).map fun _ => v else at? ms k := by
  induction ms with
  | nil => simp [at?]
  | cons m rest ih =>
    rw [List.map_cons, at?_cons, at?_cons, at?_cons, ih]
    by_cases hm : m.1.sameKey key
    · simp only [hm, if_true, Scalar.sameKey_congr hm, Option.map_some]
      by_cases hk : key.sameKey k <;> simp [hk]
    · by_cases hk : key.sameKey k
      · have hmk : ¬ m.1.sameKey k := fun hmk =>
          hm (Scalar.sameKey_trans hmk (Scalar.sameKey_comm key k ▸ hk))
        simp [hm, hk, hmk]
      · simp [hm, hk]

theorem at?_set (ms : Members) (key k : Scalar) (v : Value) :
    at? (set ms key v) k = if key.sameKey k then some v else at? ms k := by
  unfold set
  split
  · rename_i hany
    obtain ⟨w, hw⟩ := Option.isSome_iff_exists.mp (at?_isSome_iff.mpr hany)
    rw [at?_replace, hw]
    rfl
  · rename_i hany
    have hnone : at? ms key = none := by
      rw [← Option.not_isSome_iff_eq_none, at?_isSome_iff]
      exact hany
    rw [at?_append, at?_cons]
    by_cases hk : key.sameKey k
    · simp [hk, ← at?_congr ms hk, hnone]
    · simp [hk, at?]

theorem setAll_cons (ms : Members) (m : Scalar × Value) (more : Members) :
    setAll ms (m :: more) = setAll (set ms m.1 m.2) more := rfl

theorem setAll_append (ms more others : Members) :
    setAll ms (more ++ others) = setAll (setAll ms more) others := List.foldl_append

theorem at?_setAll (ms more : Members) (k : Scalar) :
    at? (setAll ms more) k = (at? more.reverse k).or (at? ms k) := by
  induction more generalizing ms with
  | nil => simp [setAll, at?]
  | cons m rest ih =>
    rw [setAll_cons, ih, at?_set, List.reverse_cons, at?_append, at?_cons, Option.or_assoc]
    congr 1
    split <;> simp [at?]

/-! ## Setting a key again -/

/-- Whether a value stands under a key, and no other value does. -/
structure Shows (ms : Members) (key : String) (v : Value) : Prop where
  get : get? ms key = some v
  only : ∀ m ∈ ms, m.1.sameKey (.text key) → m.2 = v

theorem shows_set (ms : Members) (key : String) (v : Value) : Shows (set ms (.text key) v) key v where
  get := by rw [get?_set, if_pos rfl]
  only m hm hkey := by
    unfold set at hm
    split at hm
    · obtain ⟨n, -, rfl⟩ := List.mem_map.mp hm
      by_cases hn : n.1.sameKey (.text key)
      · rw [if_pos hn]
      · rw [if_neg hn] at hkey
        exact absurd hkey hn
    · rename_i hnew
      rcases List.mem_append.mp hm with hm | hm
      · exact absurd (List.any_eq_true.mpr ⟨m, hm, hkey⟩) hnew
      · rw [List.mem_singleton.mp hm]

theorem Shows.set {key other : String} {w : Value} (h : Shows ms key v) (hne : key ≠ other) :
    Shows (Members.set ms (.text other) w) key v where
  get := by rw [get?_set, if_neg hne, h.get]
  only m hm hkey := by
    have hother : ∀ n : Scalar × Value, n.1 = .text other → n.1 ≠ .text key := by
      intro n hn hkey
      exact hne (Scalar.text.inj (hkey.symm.trans hn))
    rw [Scalar.sameKey_text_iff] at hkey
    unfold Members.set at hm
    split at hm
    · obtain ⟨n, hn, rfl⟩ := List.mem_map.mp hm
      by_cases hn' : n.1.sameKey (.text other)
      · rw [if_pos hn'] at hkey
        exact absurd hkey (hother n (Scalar.sameKey_text_iff.mp hn'))
      · rw [if_neg hn'] at hkey ⊢
        exact h.only n hn (Scalar.sameKey_text_iff.mpr hkey)
    · rcases List.mem_append.mp hm with hm | hm
      · exact h.only m hm (Scalar.sameKey_text_iff.mpr hkey)
      · obtain rfl := List.mem_singleton.mp hm
        exact absurd hkey (hother _ rfl)

theorem Shows.set_eq {key : String} (h : Shows ms key v) : Members.set ms (.text key) v = ms := by
  have hany : ms.any fun m => m.1.sameKey (.text key) := by
    rw [← at?_isSome_iff]
    exact Option.isSome_iff_exists.mpr ⟨v, h.get⟩
  rw [Members.set, if_pos hany]
  calc ms.map (fun m => if m.1.sameKey (.text key) then (m.1, v) else m) = ms.map id := by
        refine List.map_congr_left fun m hm => ?_
        split
        · rename_i hkey
          exact Prod.ext rfl (h.only m hm hkey).symm
        · rfl
    _ = ms := List.map_id ms

/-- Of two values that are set under one key the last one stays. -/
theorem set_set (ms : Members) (key : Scalar) (v w : Value) :
    set (set ms key v) key w = set ms key w := by
  have hset : (set ms key v).any (fun m => m.1.sameKey key) := by
    rw [← at?_isSome_iff, at?_set, Scalar.sameKey_self]
    rfl
  rw [set, if_pos hset, set, set]
  split
  · rw [List.map_map]
    refine List.map_congr_left fun m _ => ?_
    by_cases hm : m.1.sameKey key <;> simp [hm]
  · rename_i hnew
    have hother : ∀ m ∈ ms, ¬ m.1.sameKey key :=
      fun m hm hkey => hnew (List.any_eq_true.mpr ⟨m, hm, hkey⟩)
    rw [List.map_append, List.map_singleton, Scalar.sameKey_self, if_pos rfl]
    refine congrArg (· ++ [(key, w)]) ?_
    calc ms.map (fun m => if m.1.sameKey key then (m.1, w) else m) = ms.map id :=
          List.map_congr_left fun m hm => if_neg (hother m hm)
      _ = ms := List.map_id ms

theorem erase_set {key other : String} (hne : key ≠ other) (ms : Members) (v : Value) :
    erase (set ms (.text key) v) other = set (erase ms other) (.text key) v := by
  have hkept : ∀ m : Scalar × Value, m.1.sameKey (.text key) → ¬ m.1.sameKey (.text other) := by
    intro m hm hother
    rw [Scalar.sameKey_text_iff] at hm hother
    exact hne (Scalar.text.inj (hm.symm.trans hother))
  have hany : (erase ms other).any (fun m => m.1.sameKey (.text key)) =
      ms.any fun m => m.1.sameKey (.text key) := by
    rw [Bool.eq_iff_iff, ← at?_isSome_iff, ← at?_isSome_iff]
    have hget := get?_erase ms other key
    rw [if_neg hne] at hget
    rw [show at? (erase ms other) (.text key) = at? ms (.text key) from hget]
  unfold set
  rw [hany]
  split
  · rw [erase, erase, List.filter_map]
    refine congrArg (List.map _) (List.filter_congr fun m _ => ?_)
    by_cases hm : m.1.sameKey (.text key)
    · simp [hm, hkept m hm]
    · simp [hm]
  · rw [erase, erase, List.filter_append]
    simp [hkept (.text key, v) (Scalar.sameKey_self _)]

theorem erase_eq_self {key : String} (h : get? ms key = none) : erase ms key = ms := by
  refine List.filter_eq_self.mpr fun m hm => ?_
  have hne := get?_eq_none_iff.mp h m hm
  rw [Bool.not_eq_true', Bool.eq_false_iff]
  exact fun hkey => hne (Scalar.sameKey_text_iff.mp hkey)

/-! ## Where a key stands -/

def addKey (keys : List Scalar) (key : Scalar) : List Scalar :=
  if keys.any (·.sameKey key) then keys else keys ++ [key]

def firstKeys (keys : List Scalar) : List Scalar := keys.foldl addKey []

private theorem keys_set (ms : Members) (key : Scalar) (v : Value) :
    (set ms key v).map Prod.fst = addKey (ms.map Prod.fst) key := by
  unfold set addKey
  rw [List.any_map]
  simp only [Function.comp_def]
  split
  · rw [List.map_map]
    refine List.map_congr_left fun m _ => ?_
    simp only [Function.comp]
    split <;> rfl
  · simp

theorem keys_setAll (ms more : Members) :
    (setAll ms more).map Prod.fst = (more.map Prod.fst).foldl addKey (ms.map Prod.fst) := by
  induction more generalizing ms with
  | nil => rfl
  | cons m rest ih => rw [setAll_cons, ih, keys_set, List.map_cons, List.foldl_cons]

def KeysApart (keys : List Scalar) : Prop := keys.Pairwise fun k l => ¬ k.sameKey l

theorem KeysApart.addKey {keys : List Scalar} (h : KeysApart keys) (key : Scalar) :
    KeysApart (addKey keys key) := by
  unfold Members.addKey
  split
  · exact h
  · rename_i hnew
    refine List.pairwise_append.mpr ⟨h, List.pairwise_singleton _ _, fun k hk l hl => ?_⟩
    obtain rfl := List.mem_singleton.mp hl
    exact fun hkl => hnew (List.any_eq_true.mpr ⟨k, hk, hkl⟩)

theorem KeysApart.foldl {keys : List Scalar} (h : KeysApart keys) (more : List Scalar) :
    KeysApart (more.foldl Members.addKey keys) := by
  induction more generalizing keys with
  | nil => exact h
  | cons key rest ih => exact ih (h.addKey key)

theorem keysApart_setAll (more : Members) : KeysApart ((setAll [] more).map Prod.fst) :=
  keys_setAll [] more ▸ KeysApart.foldl List.Pairwise.nil _

private theorem at?_of_mem (h : KeysApart (ms.map Prod.fst)) {m : Scalar × Value} (hm : m ∈ ms) :
    at? ms m.1 = some m.2 := by
  induction ms with
  | nil => cases hm
  | cons n rest ih =>
    obtain ⟨hnew, hrest⟩ := List.pairwise_cons.mp h
    rw [at?_cons]
    rcases List.mem_cons.mp hm with rfl | hm
    · simp
    · rw [if_neg (hnew m.1 (List.mem_map_of_mem hm)), ih hrest hm]

theorem at?_reverse_of_mem_setAll {m : Scalar × Value} (hm : m ∈ setAll [] more) :
    at? more.reverse m.1 = some m.2 := by
  have hlast := at?_setAll [] more m.1
  rw [at?_of_mem (keysApart_setAll more) hm] at hlast
  simpa [at?] using hlast.symm

theorem setAll_eq_nil_iff : setAll [] more = [] ↔ more = [] := by
  constructor
  · intro h
    refine List.eq_nil_iff_forall_not_mem.mpr fun m hm => ?_
    have hlast := at?_setAll [] more m.1
    rw [h] at hlast
    have hnone : at? more.reverse m.1 = none := (Option.or_eq_none_iff.mp hlast.symm).1
    rw [← Option.not_isSome_iff_eq_none, at?_isSome_iff] at hnone
    exact hnone (List.any_eq_true.mpr ⟨m, List.mem_reverse.mpr hm, Scalar.sameKey_self _⟩)
  · rintro rfl
    rfl

/-- Members with the same keys in the same order are equal when they have the same values. -/
theorem eq_of_keys (hms : KeysApart (ms.map Prod.fst)) (hkeys : ms.map Prod.fst = ns.map Prod.fst)
    (h : ∀ k ∈ ms.map Prod.fst, at? ms k = at? ns k) : ms = ns := by
  induction ms generalizing ns with
  | nil => exact (List.map_eq_nil_iff.mp hkeys.symm).symm
  | cons m rest ih =>
    obtain ⟨n, others, rfl, hmn, hrest⟩ := List.map_eq_cons_iff.mp hkeys.symm
    obtain ⟨hnew, hms⟩ := List.pairwise_cons.mp hms
    obtain ⟨hhead, htail⟩ := List.forall_mem_cons.mp h
    rw [at?_cons, at?_cons, hmn, Scalar.sameKey_self, if_pos rfl, if_pos rfl] at hhead
    obtain rfl : m = n := Prod.ext hmn.symm (Option.some.inj hhead)
    refine congrArg (m :: ·) (ih hms hrest.symm fun k hk => ?_)
    simpa [at?_cons, hnew k hk] using htail k hk

/-! ## Members that were put together before -/

private theorem any_foldl_addKey (keys more : List Scalar) (k : Scalar) :
    (more.foldl addKey keys).any (·.sameKey k) =
      (keys.any (·.sameKey k) || more.any (·.sameKey k)) := by
  induction more generalizing keys with
  | nil => simp
  | cons key rest ih =>
    rw [List.foldl_cons, ih, List.any_cons, ← Bool.or_assoc]
    congr 1
    unfold addKey
    split
    · rename_i hany
      obtain ⟨l, hl, hlkey⟩ := List.any_eq_true.mp hany
      by_cases hk : key.sameKey k
      · have hmem : keys.any (·.sameKey k) :=
          List.any_eq_true.mpr ⟨l, hl, Scalar.sameKey_trans hlkey hk⟩
        rw [hmem, Bool.true_or]
      · simp [hk]
    · simp

theorem foldl_addKey_firstKeys (keys more : List Scalar) :
    (firstKeys more).foldl addKey keys = more.foldl addKey keys := by
  induction more using List.reverseRecOn with
  | nil => rfl
  | append_singleton more key ih =>
    rw [firstKeys, List.foldl_append, List.foldl_append, ← ih]
    change (addKey (firstKeys more) key).foldl addKey keys =
      addKey ((firstKeys more).foldl addKey keys) key
    by_cases hany : (firstKeys more).any (·.sameKey key)
    · have hany' : ((firstKeys more).foldl addKey keys).any (·.sameKey key) := by
        rw [any_foldl_addKey, hany, Bool.or_true]
      rw [addKey, if_pos hany, addKey, if_pos hany']
    · rw [addKey, if_neg hany, List.foldl_append]
      rfl

private theorem at?_reverse (h : KeysApart (ms.map Prod.fst)) (k : Scalar) :
    at? ms.reverse k = at? ms k := by
  induction ms with
  | nil => rfl
  | cons m rest ih =>
    obtain ⟨hnew, hrest⟩ := List.pairwise_cons.mp h
    rw [List.reverse_cons, at?_append, ih hrest, at?_cons, at?_cons]
    by_cases hm : m.1.sameKey k
    · have hnone : at? rest k = none := by
        rw [← Option.not_isSome_iff_eq_none, at?_isSome_iff, List.any_eq_true]
        rintro ⟨n, hn, hnk⟩
        exact hnew n.1 (List.mem_map_of_mem hn)
          (Scalar.sameKey_trans hm (Scalar.sameKey_comm n.1 k ▸ hnk))
      simp [hm, hnone]
    · simp [hm, at?]

/-- Members that were put together before are set as they would be one by one. -/
theorem setAll_setAll (h : KeysApart (ms.map Prod.fst)) (more : Members) :
    setAll ms (setAll [] more) = setAll ms more := by
  refine eq_of_keys (keys_setAll ms _ ▸ h.foldl _) ?_ fun k _ => ?_
  · rw [keys_setAll, keys_setAll, keys_setAll]
    exact foldl_addKey_firstKeys _ _
  · rw [at?_setAll, at?_setAll, at?_reverse (keysApart_setAll more), at?_setAll]
    simp [at?]

end Members

end OpenApiClient

import OpenApiClient.Proofs.Looks
import OpenApiClient.Proofs.ValueNodes
import Mathlib.Data.List.Perm.Subperm

/-! # Loops that follow references

References are followed from value to value until one holds none, or until one leads nowhere. Such
a chain never comes back to one of its values, so these are different nodes of the document. A loop
that goes on while references are new, with fuel for all nodes, comes to what the chain does. -/
namespace OpenApiClient

variable {look : String → Except Fault Value} {document v w : Value} {m n : Nat}
  {result other : Except Fault Value}

theorem mentions_of_require {key : String} {x : Value} (h : v.require key = .ok x) :
    v.mentions key = .ok true := by
  obtain ⟨ms, rfl, hget⟩ := require_ok_iff.mp h
  rw [Value.mentions_mapping, Members.has, hget]
  rfl

theorem reference_unique {reference further : String}
    (h : v.require "$ref" = .ok (.text reference)) (h' : v.require "$ref" = .ok (.text further)) :
    reference = further :=
  Scalar.text.inj (Value.scalar.inj (Except.ok.inj (h.symm.trans h')))

/-- What a chain of references comes to, by the number of those that lead to a value. -/
inductive ComesTo (look : String → Except Fault Value) : Nat → Value → Except Fault Value → Prop
  | plain {v : Value} (h : v.mentions "$ref" = .ok false) : ComesTo look 0 v (.ok v)
  | astray {v : Value} {reference : String} {fault : Fault}
      (href : v.require "$ref" = .ok (.text reference)) (h : look reference = .error fault) :
      ComesTo look 0 v (.error fault)
  | next {v w : Value} {reference : String} {n : Nat} {result : Except Fault Value}
      (href : v.require "$ref" = .ok (.text reference)) (h : look reference = .ok w)
      (hrest : ComesTo look n w result) : ComesTo look (n + 1) v result

/-- A loop with fuel that follows the references that it has not seen. -/
structure FollowsNew (look : String → Except Fault Value)
    (go : Nat → List String → Value → Except Fault Value) : Prop where
  plain {fuel : Nat} {seen : List String} {v : Value} (h : v.mentions "$ref" = .ok false) :
    go (fuel + 1) seen v = .ok v
  next {fuel : Nat} {seen : List String} {v : Value} {reference : String}
    (href : v.require "$ref" = .ok (.text reference)) (hnew : seen.contains reference = false) :
    go (fuel + 1) seen v = look reference >>= go fuel (reference :: seen)

namespace ComesTo

theorem length_unique (h : ComesTo look m v result) (h' : ComesTo look n v other) : m = n := by
  induction h generalizing n other with
  | plain hnone =>
    cases h' with
    | plain => rfl
    | astray => rfl
    | next href => cases hnone.symm.trans (mentions_of_require href)
  | astray href hlook =>
    cases h' with
    | plain => rfl
    | astray => rfl
    | next href' hlook' =>
      obtain rfl := reference_unique href href'
      cases hlook.symm.trans hlook'
  | next href hlook _ ih =>
    cases h' with
    | plain hnone => cases hnone.symm.trans (mentions_of_require href)
    | astray href' hlook' =>
      obtain rfl := reference_unique href href'
      cases hlook.symm.trans hlook'
    | next href' hlook' hrest =>
      obtain rfl := reference_unique href href'
      obtain rfl := Except.ok.inj (hlook.symm.trans hlook')
      rw [ih hrest]

/-- The values that a chain leads to are different, and all are found by a look. -/
theorem targets (h : ComesTo look n v result) :
    ∃ targets : List Value, targets.length = n ∧ targets.Nodup ∧
      ∀ w ∈ targets, (∃ reference, look reference = .ok w) ∧ ∃ m < n, ComesTo look m w result := by
  induction h with
  | plain => exact ⟨[], rfl, .nil, by simp⟩
  | astray => exact ⟨[], rfl, .nil, by simp⟩
  | @next v w reference n result href hlook hrest ih =>
    obtain ⟨targets, hlength, hnodup, htargets⟩ := ih
    refine ⟨w :: targets, by rw [List.length_cons, hlength], ?_, ?_⟩
    -- A target further on has fewer references before the end.
    · refine List.nodup_cons.mpr ⟨fun hmem => ?_, hnodup⟩
      obtain ⟨m, hm, hw⟩ := (htargets w hmem).2
      exact absurd (hw.length_unique hrest) (Nat.ne_of_lt hm)
    · refine List.forall_mem_cons.mpr ⟨⟨⟨reference, hlook⟩, n, Nat.lt_succ_self n, hrest⟩, ?_⟩
      intro x hx
      obtain ⟨hfound, m, hm, hx⟩ := htargets x hx
      exact ⟨hfound, m, Nat.lt_succ_of_lt hm, hx⟩

private theorem length_le (h : ComesTo look n v result)
    (hlook : ∀ reference w, look reference = .ok w → w ∈ document.nodes) :
    n ≤ document.weight := by
  obtain ⟨targets, rfl, hnodup, htargets⟩ := h.targets
  have hnodes : targets ⊆ document.nodes := by
    intro w hw
    obtain ⟨⟨reference, hfound⟩, -⟩ := htargets w hw
    exact hlook reference w hfound
  exact Nat.le_trans (List.subperm_of_subset hnodup hnodes).length_le document.length_nodes_le

/-- With fuel for the chain, a loop comes to what the chain does, if the chain does not begin behind
a reference that was followed before. -/
theorem loop_eq {go : Nat → List String → Value → Except Fault Value} (hgo : FollowsNew look go)
    (h : ComesTo look n v result) {fuel : Nat} {seen : List String} (hfuel : n < fuel)
    (hseen : ∀ reference ∈ seen, ∃ w m, look reference = .ok w ∧ ComesTo look m w result ∧ n ≤ m) :
    go fuel seen v = result := by
  induction h generalizing fuel seen with
  | plain hnone =>
    obtain ⟨fuel, rfl⟩ := Nat.exists_eq_succ_of_ne_zero (Nat.ne_of_gt hfuel)
    exact hgo.plain hnone
  | @astray v reference fault href hlook =>
    obtain ⟨fuel, rfl⟩ := Nat.exists_eq_succ_of_ne_zero (Nat.ne_of_gt hfuel)
    have hnew : seen.contains reference = false := by
      rw [Bool.eq_false_iff, Ne, List.contains_iff_mem]
      intro hmem
      obtain ⟨w, m, hw, -⟩ := hseen reference hmem
      cases hlook.symm.trans hw
    rw [hgo.next href hnew, hlook]
    rfl
  | @next v w reference n result href hlook hrest ih =>
    obtain ⟨fuel, rfl⟩ := Nat.exists_eq_succ_of_ne_zero (Nat.ne_zero_of_lt hfuel)
    have hnew : seen.contains reference = false := by
      rw [Bool.eq_false_iff, Ne, List.contains_iff_mem]
      intro hmem
      obtain ⟨x, m, hx, hcomes, hle⟩ := hseen reference hmem
      obtain rfl := Except.ok.inj (hx.symm.trans hlook)
      obtain rfl := hcomes.length_unique hrest
      exact Nat.not_succ_le_self _ hle
    have hlater : ∀ other ∈ reference :: seen, ∃ x m, look other = .ok x ∧
        ComesTo look m x result ∧ n ≤ m := by
      refine List.forall_mem_cons.mpr ⟨⟨w, n, hlook, hrest, Nat.le_refl n⟩, ?_⟩
      intro other hother
      obtain ⟨x, m, hx, hcomes, hle⟩ := hseen other hother
      exact ⟨x, m, hx, hcomes, Nat.le_of_succ_le hle⟩
    rw [hgo.next href hnew, hlook]
    exact ih (Nat.lt_of_succ_lt_succ hfuel) hlater

/-- A loop with fuel for every node of the document comes to what the chain does. -/
theorem reached {go : Nat → List String → Value → Except Fault Value} (hgo : FollowsNew look go)
    (hlook : ∀ reference w, look reference = .ok w → w ∈ document.nodes)
    (h : ComesTo look n v result) : go (document.weight + 2) [] v = result :=
  h.loop_eq hgo (Nat.lt_add_right 1 (Nat.lt_succ_of_le (h.length_le hlook))) (by simp)

end ComesTo

end OpenApiClient

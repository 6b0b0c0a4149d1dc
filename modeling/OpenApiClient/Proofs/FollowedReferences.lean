import OpenApiClient.Proofs.PathReferences
import OpenApiClient.Proofs.PointerSteps
import OpenApiClient.Proofs.SchemaGraph
import Mathlib.Data.List.Nodup

/-! # Following references to their end

A body or a response is looked up by following references. The search stops at a value that holds no
reference, at a reference that leads nowhere, and at one that was followed before. It always stops:
each reference that it follows is another one, and all of them but the first stand in the document. A
circle is told from a long chain exactly, by the first reference that comes again. -/
namespace OpenApiClient

variable {document node last target : Value} {reference part : String} {refs seen : List String}

namespace Pointer

/-- Whether a pointer goes into a sequence with a step. -/
def Indexes (document : Value) (reference part : String) : Prop :=
  ∃ before after items, steps? reference = some (before ++ part :: after) ∧
    before.foldlM step document = .ok (.sequence items)

/-- Whether a pointer goes into sequences with plain digits only. -/
def CountsPlainly (document : Value) (reference : String) : Prop :=
  ∀ part, Indexes document reference part → ∀ c ∈ part.toList, c.isDigit

theorem miscounts_iff :
    Miscounts document reference ↔ ∃ part, Indexes document reference part ∧ IsMiscount part := by
  constructor
  · rintro ⟨before, part, after, items, hsteps, hbefore, hpart⟩
    exact ⟨part, ⟨before, after, items, hsteps, hbefore⟩, hpart⟩
  · rintro ⟨part, ⟨before, after, items, hsteps, hbefore⟩, hpart⟩
    exact ⟨before, part, after, items, hsteps, hbefore, hpart⟩

theorem isMiscount_iff_of_plain (h : ∀ c ∈ part.toList, c.isDigit) :
    IsMiscount part ↔ Text.digitLimit < part.toList.length := by
  constructor
  · intro hpart
    refine hpart.unread.resolve_right ?_
    rintro ⟨c, hc, hnone⟩
    cases hnone.symm.trans (Text.decimalDigit?_of_isDigit (h c hc))
  · intro hlong
    refine ⟨List.ne_nil_of_length_pos (Nat.zero_lt_of_lt hlong), fun c hc => ?_, .inl hlong⟩
    simp [Text.isDigitSign, Text.isDecimalDigit, Text.decimalDigit?_of_isDigit (h c hc)]

private theorem not_miscounts_iff_of_plain (h : CountsPlainly document reference) :
    ¬ Miscounts document reference ↔
      ∀ part, Indexes document reference part → part.toList.length ≤ Text.digitLimit := by
  rw [miscounts_iff, not_exists]
  refine forall_congr' fun part => ?_
  rw [not_and]
  refine forall_congr' fun hpart => ?_
  rw [isMiscount_iff_of_plain (h part hpart), Nat.not_lt]

/-- A pointer to an item of a member goes into a sequence with the digits of the index alone. -/
theorem toList_of_indexes (ms : Members) (name : String) (i : Nat)
    (h : Indexes (.mapping ms) (ofSteps [.key name, .index i]) part) :
    part.toList = Nat.toDigits 10 i := by
  obtain ⟨before, after, items, hsteps, hbefore⟩ := h
  rw [steps?_ofSteps (by simp)] at hsteps
  have hparts : [name, String.ofList (Nat.toDigits 10 i)] = before ++ part :: after :=
    Option.some.inj hsteps
  cases before with
  | nil => cases hbefore
  | cons first before =>
    obtain ⟨-, hparts⟩ := List.cons.inj hparts
    cases before with
    | nil => rw [← (List.cons.inj hparts).1, String.toList_ofList]
    | cons second before => simp at hparts

theorem countsPlainly_item (ms : Members) (name : String) (i : Nat) :
    CountsPlainly (.mapping ms) (ofSteps [.key name, .index i]) := by
  intro part h c hc
  rw [toList_of_indexes ms name i h] at hc
  exact Nat.isDigit_of_mem_toDigits (by decide) (by decide) hc

end Pointer

private theorem asText_eq_error {v : Value} (h : ∀ s, v ≠ .text s) : v.asText = .error .wrongType := by
  unfold Value.asText
  split
  · exact absurd rfl (h _)
  · rfl

namespace Operation

/-! ## References that were followed -/

/-- Whether some references, followed one after the other, lead from a value to another one. -/
inductive Follows (document : Value) : List String → Value → Value → Prop
  | here {v : Value} : Follows document [] v v
  | next {v w last : Value} {reference : String} {refs : List String}
      (href : v.require "$ref" = .ok (.text reference)) (h : document.resolve reference = .ok w)
      (hrest : Follows document refs w last) : Follows document (reference :: refs) v last

/-- What the search comes to at a value where it stops, after some references. -/
inductive Stops (document : Value) (passed : List String) (v : Value) : Except Fault Value → Prop
  /-- The value holds no reference. -/
  | plain (h : v.mentions "$ref" = .ok false) : Stops document passed v (.ok v)
  /-- The value is none that holds a reference, or what it holds is no text. -/
  | stray (h : v.mentions "$ref" ≠ .ok false)
      (hnone : ∀ reference, v.require "$ref" ≠ .ok (.text reference)) :
      Stops document passed v (.error .wrongType)
  /-- The reference was followed before. -/
  | back {reference : String} (href : v.require "$ref" = .ok (.text reference))
      (hseen : reference ∈ passed) : Stops document passed v (.error (dangling reference))
  /-- The reference leads nowhere. -/
  | astray {reference : String} {fault : Fault} (href : v.require "$ref" = .ok (.text reference))
      (hnew : reference ∉ passed) (h : document.referent reference = .error fault) :
      Stops document passed v (.error fault)

private theorem Follows.meets (h : Follows document refs node last)
    (href : last.require "$ref" = .ok (.text reference)) : Meets document node reference := by
  induction h with
  | here => exact .here href
  | next hnext hlook _ ih => exact .further hnext hlook (ih href)

private theorem Follows.comesTo (h : Follows document refs node last)
    (hplain : last.mentions "$ref" = .ok false) :
    ComesTo document.referent refs.length node (.ok last) := by
  induction h with
  | here => exact .plain hplain
  | next href hlook _ ih => exact .next href (referent_ok_iff.mpr hlook) (ih hplain)

/-! ## The search -/

theorem followWith_back {fuel : Nat} (href : node.require "$ref" = .ok (.text reference))
    (hseen : reference ∈ seen) :
    followWith document (fuel + 1) seen node = .error (dangling reference) := by
  rw [followWith, mentions_of_require href, href]
  simp only [bind, Except.bind, if_true, Value.asText, List.contains_iff_mem.mpr hseen]
  rfl

theorem followWith_stray {fuel : Nat} (h : node.mentions "$ref" ≠ .ok false)
    (hnone : ∀ reference, node.require "$ref" ≠ .ok (.text reference)) :
    followWith document (fuel + 1) seen node = .error .wrongType := by
  cases node with
  | scalar s =>
    cases s with
    | text s =>
      have hoccurs : Text.occurs "$ref".toList s.toList = true := by
        simpa [Value.mentions] using h
      rw [followWith, Value.mentions, hoccurs]
      rfl
    | _ => rfl
  | sequence items =>
    have hcontains : items.contains (.text "$ref") = true := by simpa [Value.mentions] using h
    rw [followWith, Value.mentions, hcontains]
    rfl
  | mapping ms =>
    cases hget : Members.get? ms "$ref" with
    | none => exact absurd (by simp [Members.has, hget]) h
    | some x =>
      have hrequire : (Value.mapping ms).require "$ref" = .ok x := require_ok_iff.mpr ⟨ms, rfl, hget⟩
      have htext : x.asText = .error .wrongType :=
        asText_eq_error fun reference heq => hnone reference (heq ▸ hrequire)
      rw [followWith, mentions_of_require hrequire, hrequire]
      simp only [bind, Except.bind, if_true, htext]

/-- A search stops as it does at the value that the references lead to which it follows. -/
theorem followWith_eq {result : Except Fault Value} (h : Follows document refs node last)
    (hnodup : (refs.reverse ++ seen).Nodup) (hstop : Stops document (refs.reverse ++ seen) last result)
    {fuel : Nat} (hfuel : refs.length < fuel) : followWith document fuel seen node = result := by
  have hloop := followWith_followsNew document
  induction h generalizing seen fuel with
  | here =>
    obtain ⟨fuel, rfl⟩ := Nat.exists_eq_succ_of_ne_zero (Nat.ne_zero_of_lt hfuel)
    cases hstop with
    | plain h => exact hloop.plain h
    | stray h hnone => exact followWith_stray h hnone
    | back href hseen => exact followWith_back href hseen
    | astray href hnew h =>
      rw [hloop.next href (by simpa using hnew), h]
      rfl
  | @next v w last reference refs href h hrest ih =>
    obtain ⟨fuel, rfl⟩ := Nat.exists_eq_succ_of_ne_zero (Nat.ne_zero_of_lt hfuel)
    rw [List.reverse_cons, List.append_assoc, List.singleton_append] at hnodup hstop
    have hnew : reference ∉ seen :=
      (List.nodup_cons.mp (List.nodup_append.mp hnodup).2.1).1
    rw [hloop.next href (by simpa using hnew), referent_ok_iff.mpr h]
    exact ih hnodup hstop (Nat.lt_of_succ_lt_succ hfuel)

/-! ## All references that there are -/

private theorem mem_held_of_resolve (h : document.resolve reference = .ok node) {x : Value}
    (hx : node.require "$ref" = .ok x) : x ∈ document.held "$ref" := by
  obtain ⟨ms, rfl, hget⟩ := require_ok_iff.mp hx
  exact Value.mem_held.mpr ⟨ms, Value.resolve_mem_nodes h, hget⟩

/-- Different texts are not more than the values among which they are. -/
theorem length_le_of_texts {texts : List String} {held : List Value} (hnodup : texts.Nodup)
    (h : ∀ s ∈ texts, .text s ∈ held) : texts.length ≤ held.length := by
  have hsubset : texts.map Value.text ⊆ held := by
    intro x hx
    obtain ⟨s, hs, rfl⟩ := List.mem_map.mp hx
    exact h s hs
  have hnodup : (texts.map Value.text).Nodup :=
    hnodup.map fun _ _ heq => Scalar.text.inj (Value.scalar.inj heq)
  simpa using (List.subperm_of_subset hnodup hsubset).length_le

def followable (document node : Value) : List Value :=
  (node.require "$ref").toOption.toList ++ document.held "$ref"

private theorem length_followable_le (document node : Value) :
    (followable document node).length ≤ document.weight + 1 := by
  have hheld := Value.length_held_le "$ref" document
  cases h : (node.require "$ref").toOption with
  | none =>
    simp only [followable, h, Option.toList_none, List.nil_append]
    omega
  | some x =>
    simp only [followable, h, Option.toList_some, List.singleton_append, List.length_cons]
    omega

theorem mem_followable_here {x : Value} (h : node.require "$ref" = .ok x) :
    x ∈ followable document node := by simp [followable, h, Except.toOption]

/-- What is found behind a reference may be followed on. -/
theorem mem_followable_of_resolve (h : document.resolve reference = .ok target) {x : Value}
    (hx : target.require "$ref" = .ok x) : x ∈ followable document node :=
  List.mem_append_right _ (mem_held_of_resolve h hx)

private theorem Follows.mem_followable (h : Follows document refs node last) :
    ∀ reference ∈ refs, .text reference ∈ followable document node := by
  cases h with
  | here => simp
  | @next _ _ _ reference _ href hresolve hrest =>
    refine List.forall_mem_cons.mpr ⟨mem_followable_here href, ?_⟩
    -- All further references are held where the document has what an earlier one leads to.
    clear href
    induction hrest generalizing reference with
    | here => simp
    | next href hnext _ ih =>
      exact List.forall_mem_cons.mpr ⟨mem_followable_of_resolve hresolve href, ih hnext⟩

/-- A search with fuel for all references that there are stops, after references that are all
different. -/
theorem followWith_stops (document origin : Value) (fuel : Nat) (seen : List String)
    (node : Value) (hnodup : seen.Nodup)
    (hseen : ∀ reference ∈ seen, .text reference ∈ followable document origin)
    (hnode : ∀ reference, node.require "$ref" = .ok (.text reference) →
      .text reference ∈ followable document origin)
    (hfuel : (followable document origin).length < fuel + seen.length) :
    ∃ refs last, Follows document refs node last ∧ (refs.reverse ++ seen).Nodup ∧
      Stops document (refs.reverse ++ seen) last (followWith document fuel seen node) := by
  have hloop := followWith_followsNew document
  induction fuel generalizing seen node with
  | zero =>
    have hlength := length_le_of_texts hnodup hseen
    omega
  | succ fuel ih =>
    by_cases hplain : node.mentions "$ref" = .ok false
    · refine ⟨[], node, .here, hnodup, ?_⟩
      rw [hloop.plain hplain]
      exact .plain hplain
    by_cases hnone : ∀ reference, node.require "$ref" ≠ .ok (.text reference)
    · refine ⟨[], node, .here, hnodup, ?_⟩
      rw [followWith_stray hplain hnone]
      exact .stray hplain hnone
    push Not at hnone
    obtain ⟨reference, href⟩ := hnone
    by_cases hpassed : reference ∈ seen
    · refine ⟨[], node, .here, hnodup, ?_⟩
      rw [followWith_back href hpassed]
      exact .back href hpassed
    rw [hloop.next href (by simpa using hpassed)]
    cases hreferent : document.referent reference with
    | error fault => exact ⟨[], node, .here, hnodup, .astray href hpassed hreferent⟩
    | ok w =>
      have hresolve := referent_ok_iff.mp hreferent
      have hfuel' : (followable document origin).length < fuel + (reference :: seen).length := by
        rw [List.length_cons]
        omega
      obtain ⟨refs, last, hfollows, hnodup', hstop⟩ :=
        ih (reference :: seen) w (List.nodup_cons.mpr ⟨hpassed, hnodup⟩)
          (List.forall_mem_cons.mpr ⟨hnode reference href, hseen⟩)
          (fun _ => mem_followable_of_resolve hresolve) hfuel'
      refine ⟨reference :: refs, last, .next href hresolve hfollows, ?_, ?_⟩
      · rwa [List.reverse_cons, List.append_assoc, List.singleton_append]
      · rwa [List.reverse_cons, List.append_assoc, List.singleton_append]

/-- A search with fuel for the document comes to something exactly when it stops so at a value that
different references lead to. -/
theorem followWith_eq_iff {fuel : Nat} (hfuel : document.weight + 1 < fuel)
    {result : Except Fault Value} : followWith document fuel [] node = result ↔
      ∃ refs last, Follows document refs node last ∧ refs.Nodup ∧
        Stops document refs.reverse last result := by
  have hbound := length_followable_le document node
  constructor
  · rintro rfl
    obtain ⟨refs, last, hfollows, hnodup, hstop⟩ :=
      followWith_stops document node fuel [] node .nil (by simp) (fun _ => mem_followable_here)
        (Nat.lt_of_le_of_lt hbound hfuel)
    rw [List.append_nil] at hnodup hstop
    exact ⟨refs, last, hfollows, List.nodup_reverse.mp hnodup, hstop⟩
  · rintro ⟨refs, last, hfollows, hnodup, hstop⟩
    have hlength := length_le_of_texts hnodup hfollows.mem_followable
    exact followWith_eq hfollows (by simpa using hnodup) (by simpa using hstop) (by omega)

theorem follow_eq_iff {result : Except Fault Value} : follow document node = result ↔
    ∃ refs last, Follows document refs node last ∧ refs.Nodup ∧
      Stops document refs.reverse last result :=
  followWith_eq_iff (Nat.lt_succ_self _)

private theorem not_stops_endless {passed : List String} :
    ¬ Stops document passed node (.error .endless) := by
  intro h
  cases h with
  | astray _ _ h =>
    rcases referent_error_cases h with ⟨h, -⟩ | h
    · cases h
    · cases h

theorem stops_dangling_iff {passed : List String} :
    Stops document passed node (.error (dangling reference)) ↔
      node.require "$ref" = .ok (.text reference) ∧
        (reference ∈ passed ∨ document.resolve reference = .error .missingEntry) := by
  constructor
  · intro h
    generalize hresult : Except.error (dangling reference) = result at h
    cases h with
    | plain => cases hresult
    | stray => cases hresult
    | back href hseen =>
      obtain rfl := dangling_injective (Except.error.inj hresult)
      exact ⟨href, .inl hseen⟩
    | astray href _ h =>
      rcases referent_error_cases h with ⟨rfl, hmissing⟩ | rfl
      · obtain rfl := dangling_injective (Except.error.inj hresult)
        exact ⟨href, .inr hmissing⟩
      · cases hresult
  · rintro ⟨href, hcases⟩
    by_cases hseen : reference ∈ passed
    · exact .back href hseen
    · refine .astray href hseen ?_
      rw [Value.referent, hcases.resolve_left hseen]

/-- The search for what a value refers to ends, whatever the value: further fuel changes nothing. It
gives a value exactly if references lead to it and it holds none itself. It tells of a reference
exactly if references lead to it and it leads nowhere, or it is the first of them that comes again.
A reference that leads to no value and goes into sequences with plain digits only is told of unless
these digits are more than a number may have. -/
theorem follow_ends (document node : Value) :
    follow document node ≠ .error .endless ∧
    (∀ fuel, document.weight + 1 < fuel →
      followWith document fuel [] node = follow document node) ∧
    (∀ target, follow document node = .ok target ↔
      (∃ refs, Follows document refs node target) ∧ target.mentions "$ref" = .ok false) ∧
    (∀ reference, follow document node = .error (dangling reference) ↔
      ∃ refs last, Follows document refs node last ∧ refs.Nodup ∧
        last.require "$ref" = .ok (.text reference) ∧
        (reference ∈ refs ∨ document.resolve reference = .error .missingEntry)) ∧
    ∀ refs last reference, Follows document refs node last →
      last.require "$ref" = .ok (.text reference) →
      (∀ target, document.resolve reference ≠ .ok target) →
      Pointer.CountsPlainly document reference →
      (follow document node = .error (dangling reference) ↔
        ∀ part, Pointer.Indexes document reference part →
          part.toList.length ≤ Text.digitLimit) := by
  refine ⟨fun h => ?_, fun fuel hfuel => ?_, fun target => ⟨fun h => ?_, ?_⟩, fun reference => ?_, ?_⟩
  · obtain ⟨_, _, -, -, hstop⟩ := follow_eq_iff.mp h
    exact not_stops_endless hstop
  · exact (followWith_eq_iff hfuel).mpr (follow_eq_iff.mp rfl)
  · obtain ⟨refs, _, hfollows, -, ⟨hplain⟩⟩ := follow_eq_iff.mp h
    exact ⟨⟨refs, hfollows⟩, hplain⟩
  · rintro ⟨⟨refs, hfollows⟩, hplain⟩
    exact follow_of_comesTo (hfollows.comesTo hplain)
  · simp only [follow_eq_iff, stops_dangling_iff, List.mem_reverse]
  · intro refs last reference hfollows href hnone hplain
    cases hresolve : document.resolve reference with
    | ok target => exact absurd hresolve (hnone target)
    | error fault =>
      rw [(hfollows.meets href).follow_eq hresolve, referent_error_iff hresolve]
      exact Pointer.not_miscounts_iff_of_plain hplain

open Schema (refTo)

def winding : Value :=
  .mapping [(.text "a", refTo "#/b"), (.text "b", refTo "#/a"), (.text "c", refTo "#/d"),
    (.text "d", .empty), (.text "items", .sequence [.text "first"])]

/-- The circle is told by the reference that closes it, the chain is followed to its end, and the item
that there is not is told of. -/
theorem follow_ends_winding :
    follow winding (refTo "#/a") = .error (dangling "#/a") ∧
      follow winding (refTo "#/c") = .ok .empty ∧
      follow winding (refTo "#/items/1") = .error (dangling "#/items/1") := by
  obtain ⟨-, -, -, htold, -⟩ := follow_ends winding (refTo "#/a")
  obtain ⟨-, -, hfound, -⟩ := follow_ends winding (refTo "#/c")
  obtain ⟨-, -, -, -, hcounted⟩ := follow_ends winding (refTo "#/items/1")
  have hcircle : Follows winding ["#/a", "#/b"] (refTo "#/a") (refTo "#/a") :=
    .next rfl rfl (.next rfl rfl .here)
  have hchain : Follows winding ["#/c", "#/d"] (refTo "#/c") .empty :=
    .next rfl rfl (.next rfl rfl .here)
  have hmissing : ∀ target, winding.resolve "#/items/1" ≠ .ok target := nofun
  have hshort : ∀ part, Pointer.Indexes winding "#/items/1" part →
      part.toList.length ≤ Text.digitLimit := by
    intro part hpart
    rw [Pointer.toList_of_indexes _ "items" 1 hpart]
    decide
  exact ⟨(htold _).mpr ⟨_, _, hcircle, by decide, rfl, .inl (by decide)⟩,
    (hfound _).mpr ⟨⟨_, hchain⟩, rfl⟩,
    (hcounted [] _ _ .here rfl hmissing (Pointer.countsPlainly_item _ "items" 1)).mpr hshort⟩

/-- The index with one digit more than a number may have leads to no item, and is not told of. -/
theorem not_follow_dangling : ¬ ∀ (document node last : Value) (refs : List String)
    (reference : String), Follows document refs node last →
      last.require "$ref" = .ok (.text reference) →
      (∀ target, document.resolve reference ≠ .ok target) →
      Pointer.CountsPlainly document reference →
      follow document node = .error (dangling reference) := by
  intro h
  have hlong : ¬ (Pointer.Step.index (10 ^ Text.digitLimit)).IsReadable := Nat.lt_irrefl _
  have hlacks : (Value.sequence [.text "first"]).Lacks (.index (10 ^ Text.digitLimit)) :=
    Nat.pow_pos (by decide)
  have hstep := (Pointer.step_of_lacks hlacks).trans (if_neg hlong)
  have hbad : winding.resolve (Pointer.ofSteps ([.key "items"] ++ [_])) = _ :=
    Pointer.resolve_of_step_error rfl hstep
  rw [if_pos (by simp [Pointer.Step.IsReadable])] at hbad
  have hnone : ∀ target, winding.resolve _ ≠ .ok target := fun _ hok => by
    cases hbad.symm.trans hok
  have htold := h winding (refTo _) _ [] _ .here rfl hnone (Pointer.countsPlainly_item _ "items" _)
  rw [(Meets.here rfl).follow_eq hbad, Value.referent, hbad] at htold
  cases htold

end Operation

end OpenApiClient

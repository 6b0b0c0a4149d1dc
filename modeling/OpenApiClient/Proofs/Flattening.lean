import OpenApiClient.Proofs.SchemaGraph
import OpenApiClient.Proofs.MemberLookups
import Mathlib.Data.List.Perm.Subperm

/-! # What flattening gathers

Properties and required names are gathered from the schemas that a schema extends, so they have
the properties that a document hands down. Flattening goes on without an end only where following
references and `allOf` comes back to a schema. -/
namespace OpenApiClient.Schema

open Relation

variable {document schema : Value} {P : Value → Prop}

/-- What a schema declares by itself: its properties and its required names. -/
def declared (schema : Value) : Except Fault Flat := do
  let properties ← (← schema.get "properties").orEmpty.entries
  let required ← (← schema.get "required").orNone.elements
  return ⟨properties, required⟩

theorem add_eq (f : Flat) (schema : Value) :
    f.add schema = (declared schema).map fun g =>
      ⟨Members.setAll f.properties g.properties, f.required ++ g.required⟩ := by
  simp only [Flat.add, declared]
  cases schema.get "properties" with
  | error fault => rfl
  | ok properties =>
    cases hp : properties.orEmpty.entries with
    | error fault => simp [bind, Except.bind, hp, Except.map]
    | ok ms =>
      cases schema.get "required" with
      | error fault => simp [bind, Except.bind, hp, Except.map]
      | ok required =>
        cases hr : required.orNone.elements with
        | error fault => simp [bind, Except.bind, hp, hr, Except.map]
        | ok names => simp [bind, Except.bind, hp, hr, Except.map, pure, Except.pure]

theorem add_ok_iff {f g : Flat} :
    f.add schema = .ok g ↔ ∃ d, declared schema = .ok d ∧
      g = ⟨Members.setAll f.properties d.properties, f.required ++ d.required⟩ := by
  rw [add_eq]
  cases declared schema with
  | error fault => simp [Except.map]
  | ok d => simp [Except.map, eq_comm]

theorem elements_orNone_sequence (xs : List Value) :
    (Value.sequence xs).orNone.elements = .ok xs := by
  cases xs <;> rfl

theorem declared_toSchema (f : Flat) : declared f.toSchema = .ok f := by
  simp [declared, Flat.toSchema, Members.get?_cons, Value.entries, elements_orNone_sequence, bind,
    Except.bind, pure, Except.pure]

structure Flat.All (P : Value → Prop) (f : Flat) : Prop where
  properties : ∀ m ∈ f.properties, P m.2
  required : ∀ v ∈ f.required, P v

private theorem forall_setAll {ms more : Members} (hms : ∀ m ∈ ms, P m.2) (hmore : ∀ m ∈ more, P m.2) :
    ∀ m ∈ Members.setAll ms more, P m.2 := by
  unfold Members.setAll
  induction more generalizing ms with
  | nil => exact hms
  | cons n rest ih =>
    refine ih (fun m hm => ?_) fun m hm => hmore m (List.mem_cons_of_mem _ hm)
    rcases Members.mem_set hm with hm | hm
    · exact hms m hm
    · exact hm ▸ hmore n List.mem_cons_self

theorem Flat.All.add {f d g : Flat} (hf : f.All P) (hd : declared schema = .ok d) (hall : d.All P)
    (h : f.add schema = .ok g) : g.All P := by
  obtain ⟨d', hd', rfl⟩ := add_ok_iff.mp h
  obtain rfl := Except.ok.inj (hd.symm.trans hd')
  refine ⟨forall_setAll hf.properties hall.properties, fun v hv => ?_⟩
  rcases List.mem_append.mp hv with hv | hv
  · exact hf.required v hv
  · exact hall.required v hv

private theorem Flat.all_empty : Flat.All P {} := ⟨by simp, by simp⟩

/-- What a schema declares has a property that its own properties and required names have. -/
theorem Hereditary.declared_of_get (hP : Hereditary document P) {d : Flat}
    (hproperties : ∀ v, schema.get "properties" = .ok v → P v)
    (hrequired : ∀ v, schema.get "required" = .ok v → P v) (h : declared schema = .ok d) :
    d.All P := by
  simp only [declared, except_bind_ok_iff, except_pure_ok_iff] at h
  obtain ⟨properties, hp, ms, hms, required, hr, names, hnames, rfl⟩ := h
  constructor
  · by_cases htruthy : properties.isTruthy
    · simp only [Value.orEmpty, htruthy, if_true] at hms
      exact hP.entries (hproperties properties hp) hms
    · simp only [Value.orEmpty, htruthy, Bool.false_eq_true, if_false, Value.entries,
        Except.ok.injEq] at hms
      simp [← hms]
  · by_cases htruthy : required.isTruthy
    · simp only [Value.orNone, htruthy, if_true] at hnames
      exact hP.elements (hrequired required hr) hnames
    · simp only [Value.orNone, htruthy, Bool.false_eq_true, if_false, Value.elements,
        Except.ok.injEq] at hnames
      simp [← hnames]

theorem Hereditary.declared (hP : Hereditary document P) {d : Flat} (h : P schema)
    (hd : declared schema = .ok d) : d.All P :=
  hP.declared_of_get (fun _ => hP.get h) (fun _ => hP.get h) hd

theorem followRefs_of_not_mentions (h : schema.mentions "$ref" = .ok false) (fuel : Nat)
    (seen : List String) : followRefs document fuel seen schema = .ok schema := by
  cases fuel with
  | zero => rfl
  | succ fuel => rw [followRefs, h]; rfl

/-- A chain of references ends where it starts, or at a mapping in the document. -/
theorem followRefs_ok {fuel : Nat} {seen : List String} {last : Value}
    (h : followRefs document fuel seen schema = .ok last) :
    ReflTransGen (Follows document) schema last ∧
      (last = schema ∨ last ∈ document.nodes ∧ ∃ ms, last = .mapping ms) := by
  induction fuel generalizing schema seen with
  | zero =>
    cases h
    exact ⟨.refl, .inl rfl⟩
  | succ fuel ih =>
    simp only [followRefs, except_bind_ok_iff] at h
    obtain ⟨mentions, -, h⟩ := h
    cases mentions with
    | false =>
      simp only [Bool.false_eq_true, if_false, except_pure_ok_iff] at h
      exact h ▸ ⟨.refl, .inl rfl⟩
    | true =>
      simp only [if_true, except_bind_ok_iff] at h
      obtain ⟨target, htarget, reference, hreference, h⟩ := h
      obtain rfl : target = .text reference := asText_ok_iff.mp hreference
      split at h
      · simp only [except_pure_ok_iff] at h
        exact h ▸ ⟨.refl, .inl rfl⟩
      · obtain ⟨found, hfound, h⟩ := except_bind_ok_iff.mp h
        obtain ⟨hpath, hlast⟩ := ih h
        refine ⟨.head (.target htarget hfound) hpath, .inr ?_⟩
        obtain ⟨hmapping, hmem⟩ := lookup_ok hfound
        rcases hlast with rfl | hlast
        · exact ⟨hmem, hmapping⟩
        · exact hlast

theorem Hereditary.followRefs (hP : Hereditary document P) {fuel : Nat} {seen : List String}
    {last : Value} (h : P schema) (hlast : followRefs document fuel seen schema = .ok last) :
    P last := by
  rcases (followRefs_ok hlast).2 with rfl | ⟨hmem, -⟩
  · exact h
  · exact hP.of_mem_nodes hP.document hmem

/-- A schema flattens to the end of its references, or to what is gathered from the schemas that the
end extends and from the end itself. -/
theorem flattenWith_ok {fuel : Nat} {active : List Value} {flat : Value}
    (h : flattenWith document (fuel + 1) active schema = .ok flat) :
    ∃ last, followRefs document (document.weight + 2) [] schema = .ok last ∧
      ((last.mentions "allOf" = .ok false ∧ flat = last) ∨
        ∃ all subs gathered total, last.require "allOf" = .ok all ∧ all.elements = .ok subs ∧
          subs.foldlM (fun f sub => do
            f.add (← flattenWith document fuel (last :: active) sub)) ({} : Flat) = .ok gathered ∧
          gathered.add last = .ok total ∧ flat = total.toSchema) := by
  simp only [flattenWith, except_bind_ok_iff] at h
  obtain ⟨last, hlast, mentions, hmentions, h⟩ := h
  refine ⟨last, hlast, ?_⟩
  cases mentions with
  | false =>
    simp only [Bool.false_eq_true, if_false, except_pure_ok_iff] at h
    exact .inl ⟨hmentions, h.symm⟩
  | true =>
    simp only [if_true] at h
    split at h
    · cases h
    · simp only [except_bind_ok_iff, except_pure_ok_iff] at h
      obtain ⟨all, hall, subs, hsubs, gathered, hgathered, total, htotal, rfl⟩ := h
      exact .inr ⟨all, subs, gathered, total, hall, hsubs, hgathered, htotal, rfl⟩

/-- What is gathered of schemas has a property if all that they flatten to declares only what has it. -/
theorem Flat.all_gathered {flattenSub : Value → Except Fault Value} {subs : List Value}
    {gathered : Flat}
    (hsubs : ∀ sub ∈ subs, ∀ w, flattenSub sub = .ok w → ∀ d, declared w = .ok d → d.All P)
    (h : subs.foldlM (fun f sub => do f.add (← flattenSub sub)) ({} : Flat) = .ok gathered) :
    gathered.All P := by
  refine foldlM_ok_invariant Flat.all_empty (fun sub hsub f g hf hg => ?_) h
  obtain ⟨w, hw, hadd⟩ := except_bind_ok_iff.mp hg
  obtain ⟨d, hd, -⟩ := add_ok_iff.mp hadd
  exact hf.add hd (hsubs sub hsub w hw d hd) hadd

/-- What a schema with an inherited property flattens to declares only what has it too. -/
theorem Hereditary.flattenWith (hP : Hereditary document P) {fuel : Nat} {active : List Value}
    {flat : Value} (h : P schema) (hflat : flattenWith document fuel active schema = .ok flat) :
    ∀ d, Schema.declared flat = .ok d → d.All P := by
  induction fuel generalizing schema active flat with
  | zero => cases hflat
  | succ fuel ih =>
    obtain ⟨last, hlast, ⟨-, rfl⟩ | ⟨all, subs, gathered, total, hall, hsubs, hgathered, htotal,
      rfl⟩⟩ := flattenWith_ok hflat
    · exact fun d hd => hP.declared (hP.followRefs h hlast) hd
    · have hPlast := hP.followRefs h hlast
      obtain ⟨ms, rfl, hget⟩ := require_ok_iff.mp hall
      have hmembers := hP.elements (hP.get? hPlast hget) hsubs
      have hf : gathered.All P :=
        Flat.all_gathered (fun sub hsub _ hw => ih (hmembers sub hsub) hw) hgathered
      intro d hd
      obtain rfl := Except.ok.inj ((declared_toSchema total).symm.trans hd)
      obtain ⟨own, hown, -⟩ := add_ok_iff.mp htotal
      exact hf.add hown (hP.declared hPlast hown) htotal

/-- What is gathered for a schema has the property that the extended schemas have, and the
properties and required names of the schema itself. -/
theorem Hereditary.gather (hP : Hereditary document P) {subs : List Value} {flat : Flat}
    (hsubs : ∀ sub ∈ subs, P sub) (hproperties : ∀ v, schema.get "properties" = .ok v → P v)
    (hrequired : ∀ v, schema.get "required" = .ok v → P v)
    (h : gather document subs schema = .ok flat) : flat.All P := by
  obtain ⟨gathered, hgathered, hadd⟩ := except_bind_ok_iff.mp h
  have hf : gathered.All P :=
    Flat.all_gathered (fun sub hsub _ hw => hP.flattenWith (hsubs sub hsub) hw) hgathered
  obtain ⟨own, hown, -⟩ := add_ok_iff.mp hadd
  exact hf.add hown (hP.declared_of_get hproperties hrequired hown) hadd

theorem lookup_looks (document : Value) (reference : String) :
    Looks (lookup document reference) := by
  have hstep : ∀ v part, Looks (Pointer.step v part) := by
    intro v part
    cases v with
    | scalar s => exact .error .missingEntry
    | sequence items =>
      simp only [Pointer.step]
      split
      · exact .error .missingEntry
      split
      · exact .error .badValue
      split
      · exact .ok _
      · exact .error .missingEntry
    | mapping ms =>
      simp only [Pointer.step]
      split
      · exact .ok _
      · exact .error .missingEntry
  have hresolve : Looks (document.resolve reference) := by
    unfold Value.resolve
    split
    · exact .error .missingEntry
    · exact .foldlM hstep _ _
  unfold lookup
  split
  · exact .ok _
  · exact .error (.dangling _)
  · exact .error (.dangling _)
  · rename_i fault _ hfault
    exact .error (hresolve fault hfault)

theorem followRefs_looks (document : Value) (fuel : Nat) (seen : List String) (schema : Value) :
    Looks (followRefs document fuel seen schema) := by
  induction fuel generalizing seen schema with
  | zero => exact .ok _
  | succ fuel ih =>
    refine (Value.mentions_looks _ _).bind fun mentions => ?_
    split
    · refine (Value.require_looks _ _).bind fun target =>
        (Value.asText_looks _).bind fun reference => ?_
      split
      · exact .pure _
      · exact (lookup_looks _ _).bind fun found => ih _ _
    · exact .pure _

private theorem declared_looks (schema : Value) : Looks (declared schema) :=
  (Value.get_looks _ _).bind fun _ => (Value.entries_looks _).bind fun _ =>
    (Value.get_looks _ _).bind fun _ => (Value.elements_looks _).bind fun _ => .pure _

theorem add_looks (f : Flat) (schema : Value) : Looks (f.add schema) := by
  rw [add_eq]
  exact (declared_looks schema).map

theorem flatten_scalar (document : Value) (s : Scalar) :
    flatten document (.scalar s) ≠ .error .endless ∧
      ∀ flat, flatten document (.scalar s) = .ok flat → flat = .scalar s := by
  have hrequire : ∀ key, (Value.scalar s).require key = .error .wrongType := fun _ => rfl
  have hfollow : ∀ last, followRefs document (document.weight + 2) [] (.scalar s) = .ok last →
      last = .scalar s := by
    intro last hlast
    rcases except_bind_ok_iff.mp hlast with ⟨mentions, -, hlast⟩
    cases mentions with
    | false =>
      simp only [Bool.false_eq_true, if_false, except_pure_ok_iff] at hlast
      exact hlast.symm
    | true => simp [hrequire, bind, Except.bind] at hlast
  constructor
  · intro h
    rcases except_bind_error_iff.mp h with h | ⟨last, hlast, h⟩
    · exact (followRefs_looks _ _ _ _).ends h
    · obtain rfl := hfollow last hlast
      rcases except_bind_error_iff.mp h with h | ⟨mentions, -, h⟩
      · exact (Value.mentions_looks _ _).ends h
      · cases mentions <;> simp [hrequire, bind, Except.bind] at h
  · intro flat h
    obtain ⟨last, hlast, h⟩ := except_bind_ok_iff.mp h
    obtain rfl := hfollow last hlast
    obtain ⟨mentions, -, h⟩ := except_bind_ok_iff.mp h
    cases mentions with
    | false =>
      simp only [Bool.false_eq_true, if_false, except_pure_ok_iff] at h
      exact h.symm
    | true => simp [hrequire, bind, Except.bind] at h

/-- A schema that is flattened, or is within one that is, lies in it or in the document. -/
theorem hereditary_nodes (document top : Value) :
    Hereditary document fun v =>
      v ∈ document.nodes ++ top.nodes ∨ ∃ s, v = .scalar s where
  scalar s := .inr ⟨s, rfl⟩
  items := by
    intro items h v hv
    rcases h with h | ⟨s, hs⟩
    · have hnode : v ∈ (Value.sequence items).nodes :=
        Value.mem_nodes_sequence.mpr (.inr ⟨v, hv, v.mem_nodes_self⟩)
      refine .inl (List.mem_append.mpr ?_)
      exact (List.mem_append.mp h).imp (Value.nodes_subset · hnode) (Value.nodes_subset · hnode)
    · cases hs
  members := by
    intro ms h m hm
    rcases h with h | ⟨s, hs⟩
    · have hnode : m.2 ∈ (Value.mapping ms).nodes :=
        Value.mem_nodes_mapping.mpr (.inr ⟨m, hm, m.2.mem_nodes_self⟩)
      refine .inl (List.mem_append.mpr ?_)
      exact (List.mem_append.mp h).imp (Value.nodes_subset · hnode) (Value.nodes_subset · hnode)
    · cases hs
  document := .inl (List.mem_append_left _ document.mem_nodes_self)

/-- A flattening without an end is at a schema that is being flattened, or has no end for one of the
schemas that are extended. -/
theorem flattenWith_endless_step {fuel : Nat} {active : List Value}
    (h : flattenWith document (fuel + 1) active schema = .error .endless) :
    ∃ last, followRefs document (document.weight + 2) [] schema = .ok last ∧
      (last ∈ active ∨ last ∉ active ∧ ∃ all subs sub, last.require "allOf" = .ok all ∧
        all.elements = .ok subs ∧ sub ∈ subs ∧
        flattenWith document fuel (last :: active) sub = .error .endless) := by
  rcases except_bind_error_iff.mp h with h | ⟨last, hlast, h⟩
  · exact absurd h (followRefs_looks _ _ _ _).ends
  refine ⟨last, hlast, ?_⟩
  rcases except_bind_error_iff.mp h with h | ⟨mentions, -, h⟩
  · exact absurd h (Value.mentions_looks _ _).ends
  cases mentions with
  | false => simp at h
  | true =>
    simp only [if_true, List.contains_eq_mem, decide_eq_true_eq] at h
    split at h
    · rename_i hmem
      exact .inl hmem
    · rename_i hnew
      rcases except_bind_error_iff.mp h with h | ⟨all, hall, h⟩
      · exact absurd h (Value.require_looks _ _).ends
      rcases except_bind_error_iff.mp h with h | ⟨subs, hsubs, h⟩
      · exact absurd h (Value.elements_looks _).ends
      rcases except_bind_error_iff.mp h with h | ⟨gathered, -, h⟩
      · obtain ⟨sub, hsub, f, hf⟩ := foldlM_error h
        rcases except_bind_error_iff.mp hf with hf | ⟨w, -, hf⟩
        · exact .inr ⟨hnew, all, subs, sub, hall, hsubs, hsub, hf⟩
        · exact absurd hf (add_looks _ _).ends
      · rcases except_bind_error_iff.mp h with h | ⟨total, -, h⟩
        · exact absurd h (add_looks _ _).ends
        · simp at h

/-- A flattening without an end has come back to a schema. -/
theorem flattenWith_endless {top : Value} {fuel : Nat} {active : List Value}
    (h : flattenWith document fuel active schema = .error .endless)
    (hschema : schema ∈ document.nodes ++ top.nodes ∨ ∃ s, schema = .scalar s)
    (hnodup : active.Nodup) (hactive : active ⊆ document.nodes ++ top.nodes)
    (hfuel : document.weight + top.weight + 2 ≤ fuel + active.length)
    (hpath : ∀ a ∈ active, TransGen (Follows document) a schema) :
    ∃ t, ReflTransGen (Follows document) schema t ∧ TransGen (Follows document) t t := by
  induction fuel generalizing schema active with
  | zero =>
    -- The schemas that are being flattened are different nodes, and there are not so many.
    have hlength := (List.subperm_of_subset hnodup hactive).length_le
    have hdocument := document.length_nodes_le
    have htop := top.length_nodes_le
    simp only [List.length_append] at hlength
    omega
  | succ fuel ih =>
    obtain ⟨last, hlast, hstep⟩ := flattenWith_endless_step h
    obtain ⟨hreach, -⟩ := followRefs_ok hlast
    have hlastNode := (hereditary_nodes document top).followRefs hschema hlast
    have hlastPath : ∀ a ∈ active, TransGen (Follows document) a last := fun a ha =>
      (hpath a ha).trans_left hreach
    rcases hstep with hmem | ⟨hnew, all, subs, sub, hall, hsubs, hsub, hendless⟩
    · exact ⟨last, hreach, hlastPath last hmem⟩
    · obtain ⟨ms, rfl, hget⟩ := require_ok_iff.mp hall
      have hfollows : Follows document (.mapping ms) sub := .member hall hsubs hsub
      have hnode : Value.mapping ms ∈ document.nodes ++ top.nodes :=
        hlastNode.resolve_right (by rintro ⟨s, hs⟩; cases hs)
      have hin := hereditary_nodes document top
      have hsubPath : ∀ a ∈ .mapping ms :: active, TransGen (Follows document) a sub := by
        intro a ha
        rcases List.mem_cons.mp ha with rfl | ha
        · exact .single hfollows
        · exact (hlastPath a ha).tail hfollows
      obtain ⟨t, ht, hcycle⟩ := ih hendless
        (hin.elements (hin.get? hlastNode hget) hsubs sub hsub)
        (List.nodup_cons.mpr ⟨hnew, hnodup⟩) (List.cons_subset.mpr ⟨hnode, hactive⟩)
        (by simp only [List.length_cons]; omega) hsubPath
      exact ⟨t, hreach.trans (.head hfollows ht), hcycle⟩

/-- A flattening without an end meets a schema that comes back to itself. -/
theorem flatten_endless (h : flatten document schema = .error .endless) :
    ∃ t, ReflTransGen (Follows document) schema t ∧ TransGen (Follows document) t t :=
  flattenWith_endless h (.inl (List.mem_append_right _ schema.mem_nodes_self)) .nil (by simp)
    (by simp) (by simp)

end OpenApiClient.Schema

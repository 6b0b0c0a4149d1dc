import OpenApiClient.Proofs.SchemaBulk

/-! # Where a layer has no end

Reading a layer off a schema ends, with a layer or with a fault, but for one case: a schema that
extends several others has to flatten them, and one of these may come back to itself. -/
namespace OpenApiClient.Schema

variable {document schema : Value} {hint : String}

theorem isNullable_looks (schema : Value) : Looks (isNullable schema) := by
  have hlists : ∀ v, Looks (listsNull v) := by
    intro v
    cases v with
    | scalar s => exact .error .wrongType
    | sequence items => exact .ok _
    | mapping ms => exact .ok _
  refine (Value.members_looks _).bind fun ms => ?_
  dsimp only
  split
  · exact .pure _
  · split
    · split
      · exact .pure _
      · split
        · exact hlists _
        · exact .pure _
    · split
      · exact hlists _
      · exact .pure _

theorem stripNullable_looks (schema : Value) : Looks (stripNullable schema) := by
  refine (Value.members_looks _).bind fun ms => ?_
  dsimp only
  split
  · exact (Value.elements_looks _).bind fun _ => .pure _
  · exact .pure _

theorem isReference_looks (schema : Value) : Looks (isReference schema) := by
  refine (Value.mentions_looks _ _).bind fun mentions => ?_
  split
  · exact (isNullable_looks _).bind fun _ => .pure _
  · exact .pure _

private theorem areRemarks_looks (keys : List Value) : Looks (areRemarks keys) := by
  induction keys with
  | nil => exact .ok _
  | cons key rest ih =>
    refine (Value.asScalar_looks _).bind fun s => ?_
    split
    · split
      · exact ih
      · exact .pure _
    · exact .pure _

private theorem isRemark_looks (schema : Value) : Looks (isRemark schema) :=
  (Value.elements_looks _).bind areRemarks_looks

theorem extended_looks (schema : Value) : Looks (extended schema) :=
  (Value.require_looks _ _).bind fun _ => (Value.elements_looks _).bind fun subs =>
    .filterM (fun sub => (isRemark_looks sub).bind fun _ => .pure _) subs

theorem objectLayer_looks (schema : Value) (hint : String) : Looks (objectLayer schema hint) := by
  refine (Value.get_looks _ _).bind fun properties => ?_
  dsimp only
  split
  · refine .bind ?_ fun required => (Value.members_looks _).bind fun members => .pure _
    exact (Value.get_looks _ _).bind fun required => (Value.elements_looks _).bind fun names =>
      .mapM Value.asScalar_looks names
  · exact (Value.get_looks _ _).bind fun values => .pure _

theorem plainLayer_looks (schema : Value) (hint : String) : Looks (plainLayer schema hint) := by
  have htexts : ∀ values, Looks (textValues? values) := by
    intro values
    unfold textValues?
    split
    · exact .pure _
    · exact (Value.elements_looks _).bind fun _ => .pure _
  have hstring : ∀ format, Looks (stringType format) := by
    intro format
    refine (Value.asScalar_looks _).bind fun s => ?_
    split <;> exact .pure _
  refine (Value.members_looks _).bind fun ms => (Value.get_looks _ _).bind fun enum =>
    (htexts enum).bind fun values => ?_
  cases values with
  | some values => exact .pure _
  | none =>
    refine (Value.get_looks _ _).bind fun type => ?_
    split
    · exact .pure _
    · exact (Value.get?_looks _ _).bind fun format => (hstring _).bind fun _ => .pure _
    · exact .pure _
    · exact .pure _
    · exact .pure _
    · exact (Value.get_looks _ _).bind fun items => .pure _
    · split
      · exact objectLayer_looks _ _
      · exact .pure _

private theorem sortedMembers_looks (ms : Members) : Looks (Members.sorted ms) := by
  have hinsert : ∀ m rest, Looks (Members.insertSorted m rest) := by
    intro m rest
    induction rest with
    | nil => exact .ok _
    | cons n rest ih =>
      unfold Members.insertSorted
      split
      · exact .error .wrongType
      · exact .ok _
      · exact ih.map
  induction ms with
  | nil => exact .ok _
  | cons m rest ih => exact ih.bind fun _ => hinsert _ _

private theorem sorted_looks (v : Value) : Looks v.sorted := by
  induction v with
  | scalar s => exact .ok _
  | sequence items ih =>
    refine FailsBy.map ?_
    induction items with
    | nil => exact .ok _
    | cons v rest hrest =>
      exact (ih v List.mem_cons_self).bind fun _ =>
        (hrest fun w hw => ih w (List.mem_cons_of_mem _ hw)).map
  | mapping ms ih =>
    refine .bind ?_ fun sorted => (sortedMembers_looks sorted).map
    induction ms with
    | nil => exact .ok _
    | cons m rest hrest =>
      exact (ih m List.mem_cons_self).bind fun _ =>
        (hrest fun n hn => ih n (List.mem_cons_of_mem _ hn)).map

theorem structuralKey_looks (schema : Value) : Looks (structuralKey schema) :=
  (sorted_looks _).map

theorem modelName_looks (schema : Value) (hint : String) (body : Body) :
    Looks (modelName schema hint body) := by
  refine (Value.get_looks _ _).bind fun title => ?_
  split
  · exact Value.asText_looks _
  · split
    · exact .pure _
    · split <;> exact .pure _

/-- A layer without an end is that of a schema that extends several others, one of which is
flattened without an end. -/
theorem layer_endless (h : layer document schema hint = .error .endless) :
    Merges schema ∧ ∃ subs, extended schema = .ok subs ∧
      ∃ sub ∈ subs, flatten document sub = .error .endless := by
  rcases except_bind_error_iff.mp h with h | ⟨ms, hms, h⟩
  · exact absurd h (Value.members_looks _).ends
  rcases except_bind_error_iff.mp h with h | ⟨nullable, hnull, h⟩
  · exact absurd h (isNullable_looks _).ends
  cases nullable with
  | true =>
    simp only [if_true, except_bind_error_iff, except_pure_ne_error, and_false, exists_false,
      or_false] at h
    exact absurd h (stripNullable_looks _).ends
  | false =>
    simp only [Bool.false_eq_true, if_false] at h
    split at h
    · simp at h
    · split at h
      · rcases except_bind_error_iff.mp h with h | ⟨subs, hsubs, h⟩
        · exact absurd h (extended_looks _).ends
        split at h
        · simp at h
        · rename_i hmany
          rcases except_bind_error_iff.mp h with h | ⟨flat, -, h⟩
          · rcases except_bind_error_iff.mp h with h | ⟨gathered, -, h⟩
            · obtain ⟨sub, hsub, f, hf⟩ := foldlM_error h
              rcases except_bind_error_iff.mp hf with hf | ⟨w, -, hf⟩
              · exact ⟨merges_of_endless hsubs hmany hsub hf, subs, hsubs, sub, hsub, hf⟩
              · exact absurd hf (add_looks _ _).ends
            · exact absurd h (add_looks _ _).ends
          · exact absurd h (objectLayer_looks _ _).ends
      · have hchoice : ∀ alternatives, Looks (choiceLayer alternatives hint) :=
          fun alternatives => (Value.elements_looks _).bind fun _ => .pure _
        split at h
        · exact absurd h (hchoice _).ends
        · exact absurd h (hchoice _).ends
        · exact absurd h (plainLayer_looks _ _).ends

end OpenApiClient.Schema

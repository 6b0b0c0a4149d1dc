import OpenApiClient.Proofs.PartClosure

/-! # How much there is to a schema

The bulk of a schema goes down with every step to a part, also when null is struck from it or one of
its types is chosen. Only a property of a schema that is extended may come from elsewhere, and then
it is a node of the document. -/
namespace OpenApiClient.Schema

variable {document schema : Value} {hint : String} {outer : Layer}

def isStruckKey (key : Scalar) : Bool :=
  key == .text "nullable" || key == .text "type" || key == .text "enum"

def struckBulk (ms : Members) : Nat :=
  ((Members.get? ms "type").elim 0 Value.weight) +
    ((Members.get? ms "enum").elim 0 fun values => if listsNull values = .ok true then 1 else 0) +
    ((Members.get? ms "nullable").elim 0 fun _ => 1)

/-- The bulk of a schema: the weight of all that striking null leaves as it is, and what it may
change. -/
def bulk : Value → Nat
  | .mapping ms =>
    1 + Value.weightMembers (ms.filter fun m => !isStruckKey m.1) + struckBulk ms
  | v => v.weight

private theorem struckBulk_add_le (ms : Members) :
    Value.weightMembers (ms.filter fun m => !isStruckKey m.1) + struckBulk ms ≤
      Value.weightMembers ms := by
  induction ms with
  | nil => simp [struckBulk]
  | cons m rest ih =>
    obtain ⟨k, v⟩ := m
    have henum : (if listsNull v = .ok true then 1 else 0) ≤ 1 := by split <;> simp
    simp only [struckBulk, Members.get?_cons, List.filter_cons, Value.weightMembers] at ih ⊢
    by_cases hflag : k = .text "nullable"
    · subst hflag
      simp [isStruckKey] at ih ⊢
      cases hn : Members.get? rest "nullable" <;> simp [hn] at ih <;> omega
    by_cases htype : k = .text "type"
    · subst htype
      simp [isStruckKey] at ih ⊢
      omega
    by_cases hen : k = .text "enum"
    · subst hen
      simp [isStruckKey] at ih ⊢
      omega
    simp [isStruckKey, hflag, htype, hen, Value.weightMembers] at ih ⊢
    omega

theorem bulk_le_weight (v : Value) : bulk v ≤ v.weight := by
  cases v with
  | scalar s => exact Nat.le_refl _
  | sequence items => exact Nat.le_refl _
  | mapping ms =>
    have := struckBulk_add_le ms
    simp only [bulk, Value.weight]
    omega

theorem weightItems_filter_le (p : Value → Bool) (items : List Value) :
    Value.weightItems (items.filter p) ≤ Value.weightItems items := by
  induction items with
  | nil => simp
  | cons v rest ih =>
    simp only [List.filter_cons, Value.weightItems]
    split
    · simp only [Value.weightItems]
      omega
    · omega

private theorem weightItems_filter_lt {p : Value → Bool} {items : List Value} {v : Value}
    (hv : v ∈ items)
    (hp : p v = false) : Value.weightItems (items.filter p) < Value.weightItems items := by
  induction items with
  | nil => simp at hv
  | cons w rest ih =>
    have hle := weightItems_filter_le p rest
    have hpos := w.weight_pos
    simp only [List.filter_cons, Value.weightItems]
    rcases List.mem_cons.mp hv with rfl | hv
    · simp only [hp, Bool.false_eq_true, if_false]
      omega
    · have := ih hv
      split
      · simp only [Value.weightItems]
        omega
      · omega

/-- Null struck from a type does not make it heavier, and makes it lighter where it was listed. -/
theorem weight_typeWithoutNull (type : Value) :
    (typeWithoutNull type).elim 0 Value.weight ≤ type.weight ∧
      ∀ types, type = .sequence types → .text "null" ∈ types →
        (typeWithoutNull type).elim 0 Value.weight < type.weight := by
  cases type with
  | scalar s => exact ⟨Nat.le_refl _, by simp⟩
  | mapping members => exact ⟨Nat.le_refl _, by simp⟩
  | sequence types =>
    have hle := weightItems_filter_le (· != .text "null") types
    have hlt : .text "null" ∈ types →
        Value.weightItems (types.filter (· != .text "null")) < Value.weightItems types :=
      fun h => weightItems_filter_lt h (by simp)
    simp only [Value.weight, Value.sequence.injEq, forall_eq']
    rcases typeWithoutNull_sequence types with ⟨hkept, htype⟩ | ⟨only, hkept, htype⟩ |
      ⟨first, second, others, hkept, htype⟩
    · rw [htype, Option.elim_none]
      exact ⟨by omega, fun _ => by omega⟩
    · rw [hkept, Value.weightItems, Value.weightItems] at hle hlt
      rw [htype, Option.elim_some]
      exact ⟨by omega, fun h => by have := hlt h; omega⟩
    · rw [hkept] at hle hlt
      rw [htype, Option.elim_some, Value.weight]
      exact ⟨by omega, fun h => by have := hlt h; omega⟩

private theorem listsNull_filter (elements : List Value) :
    listsNull (.sequence (elements.filter (· != .null))) = .ok false := by
  simp [listsNull]

theorem isNullable_true {ms : Members} (h : isNullable (.mapping ms) = .ok true) :
    Members.get? ms "nullable" = some (.bool true) ∨
      (∃ types, Members.get? ms "type" = some (.sequence types) ∧ .text "null" ∈ types) ∨
      ∃ values, Members.get? ms "enum" = some values ∧ listsNull values = .ok true := by
  by_cases hflag : Members.get? ms "nullable" = some (.bool true)
  · exact .inl hflag
  refine .inr ?_
  simp only [isNullable, Value.members, bind, Except.bind, hflag, if_false] at h
  cases hvalues : Members.get? ms "enum" with
  | none =>
    cases htype : Members.get? ms "type" with
    | none => simp [htype, hvalues] at h
    | some type =>
      cases type with
      | scalar s => simp [htype, hvalues] at h
      | mapping members => simp [htype, hvalues] at h
      | sequence types =>
        by_cases hnull : .text "null" ∈ types
        · exact .inl ⟨types, rfl, hnull⟩
        · simp [htype, hvalues, hnull] at h
  | some values =>
    cases htype : Members.get? ms "type" with
    | none => exact .inr ⟨values, rfl, by simpa [htype, hvalues] using h⟩
    | some type =>
      cases type with
      | scalar s => exact .inr ⟨values, rfl, by simpa [htype, hvalues] using h⟩
      | mapping members => exact .inr ⟨values, rfl, by simpa [htype, hvalues] using h⟩
      | sequence types =>
        by_cases hnull : .text "null" ∈ types
        · exact .inl ⟨types, rfl, hnull⟩
        · exact .inr ⟨values, rfl, by simpa [htype, hvalues, hnull] using h⟩

/-- Striking null from a schema that admits it takes something off. -/
theorem bulk_strip_lt {ms : Members} {inner : Value} (hnull : isNullable (.mapping ms) = .ok true)
    (h : stripNullable (.mapping ms) = .ok inner) : bulk inner < bulk (.mapping ms) := by
  obtain ⟨stripped, rfl, hstripped⟩ := stripNullable_ok h
  have hothers := hstripped.others (p := fun k => !isStruckKey k) (by simp [isStruckKey])
    (by simp [isStruckKey]) (by simp [isStruckKey])
  have htype : (Members.get? stripped "type").elim 0 Value.weight ≤
      (Members.get? ms "type").elim 0 Value.weight := by
    rw [hstripped.type]
    cases htype : Members.get? ms "type" with
    | none => simp
    | some type => simpa using (weight_typeWithoutNull type).1
  have henum : ((Members.get? stripped "enum").elim 0
      fun values => if listsNull values = .ok true then 1 else 0) = 0 := by
    cases henum : Members.get? ms "enum" with
    | none => simp [hstripped.enum_none henum]
    | some values =>
      obtain ⟨elements, -, hget⟩ := hstripped.enum_some henum
      simp [hget, listsNull_filter]
  simp only [bulk, struckBulk, hothers, henum, hstripped.flag, Option.elim_none]
  rcases isNullable_true hnull with hflag | ⟨types, htypes, hmem⟩ | ⟨values, hvalues, hlists⟩
  · simp only [hflag, Option.elim_some]
    omega
  · have hlt := (weight_typeWithoutNull (.sequence types)).2 types rfl hmem
    rw [hstripped.type, htypes]
    simp only [Option.bind_some, Option.elim_some]
    omega
  · simp only [hvalues, Option.elim_some, hlists, if_true]
    omega

/-- A value under a key that null does not touch weighs less than there is to the schema. -/
theorem weight_lt_bulk {ms : Members} {key : String} {v : Value}
    (hkey : isStruckKey (.text key) = false) (h : Members.get? ms key = some v) :
    v.weight + 1 < bulk (.mapping ms) := by
  have hmem : v.weight < Value.weightMembers (ms.filter fun m => !isStruckKey m.1) :=
    Value.weight_lt_weightMembers
      (List.mem_filter.mpr ⟨Value.mem_of_get?_eq_some h, by simp [hkey]⟩)
  simp only [bulk]
  omega

private theorem bulk_typed_lt {ms : Members} {types : List Value} {t : Value}
    (h : Members.get? ms "type" = some (.sequence types)) (ht : t ∈ types) :
    bulk (.mapping (Members.set ms (.text "type") t)) < bulk (.mapping ms) := by
  have hothers : (Members.set ms (.text "type") t).filter (fun m => !isStruckKey m.1) =
      ms.filter fun m => !isStruckKey m.1 :=
    Members.filter_set (p := fun k => !isStruckKey k) (by simp [isStruckKey])
  have hweight := Value.weight_le_weightItems ht
  simp only [bulk, struckBulk, hothers, Members.get?_set, h, if_true, Option.elim_some,
    Value.weight, String.reduceEq, if_false]
  omega

theorem weight_elements {v x : Value} {xs : List Value} (h : v.elements = .ok xs) (hx : x ∈ xs) :
    x.weight ≤ v.weight := by
  rcases mem_elements_nodes h hx with hnode | ⟨s, rfl⟩
  · exact Value.weight_le_of_mem_nodes hnode
  · exact v.weight_pos

theorem weight_orEmpty_le (v : Value) : v.orEmpty.weight ≤ v.weight := by
  unfold Value.orEmpty
  split
  · exact Nat.le_refl _
  · have := v.weight_pos
    simp only [Value.weight, Value.weightMembers]
    omega

theorem hereditary_weight {n : Nat} (hn : 1 < n) (document : Value) :
    Hereditary document fun v => v.weight < n ∨ v ∈ document.nodes where
  scalar s := .inl (by simpa [Value.weight] using hn)
  items := by
    intro items h v hv
    rcases h with h | h
    · have := Value.weight_le_weightItems hv
      simp only [Value.weight] at h
      exact .inl (by omega)
    · exact .inr (Value.nodes_subset h
        (Value.mem_nodes_sequence.mpr (.inr ⟨v, hv, v.mem_nodes_self⟩)))
  members := by
    intro ms h m hm
    rcases h with h | h
    · have := Value.weight_lt_weightMembers hm
      simp only [Value.weight] at h
      exact .inl (by omega)
    · exact .inr (Value.nodes_subset h
        (Value.mem_nodes_mapping.mpr (.inr ⟨m, hm, m.2.mem_nodes_self⟩)))
  document := .inr document.mem_nodes_self

/-- Properties that are gathered weigh less than the schema, or come from the document; these only
when several schemas are extended. -/
theorem weight_gather {ms : Members} {subs : List Value} {flat : Flat}
    (hms : 1 < bulk (.mapping ms))
    (hsubs : extended (.mapping ms) = .ok subs) (hmany : ∀ only, subs ≠ [only])
    (h : gather document subs (.mapping ms) = .ok flat) :
    ∀ m ∈ flat.properties, m.2.weight < bulk (.mapping ms) ∨
      (m.2 ∈ document.nodes ∧ Merges (.mapping ms)) := by
  have hown : ∀ key, isStruckKey (.text key) = false → ∀ v, (Value.mapping ms).get key = .ok v →
      v.weight < bulk (.mapping ms) := by
    intro key hkey v hv
    simp only [get_mapping, Except.ok.injEq] at hv
    subst hv
    cases hget : Members.get? ms key with
    | none => simpa [Value.weight] using hms
    | some w =>
      have := weight_lt_bulk hkey hget
      simp only [Option.getD_some]
      omega
  obtain ⟨all, elements, hall, helements, -, hfilter⟩ := extended_ok hsubs
  have hsub : ∀ sub ∈ subs, sub.weight < bulk (.mapping ms) := by
    intro sub hsub
    have hle := weight_elements helements (List.mem_of_mem_filter (hfilter ▸ hsub))
    have := weight_lt_bulk (by simp [isStruckKey]) hall
    omega
  have hgather : ∀ within, gather within subs (.mapping ms) = .ok flat →
      ∀ m ∈ flat.properties, m.2.weight < bulk (.mapping ms) ∨ m.2 ∈ within.nodes :=
    fun within hwithin => ((hereditary_weight hms within).gather (fun sub h => .inl (hsub sub h))
      (fun v hv => .inl (hown "properties" (by simp [isStruckKey]) v hv))
      (fun v hv => .inl (hown "required" (by simp [isStruckKey]) v hv)) hwithin).properties
  intro m hm
  by_cases hnil : subs = []
  · -- without a schema to extend, nothing of the document is looked at
    have hsame : gather .null subs (.mapping ms) = gather document subs (.mapping ms) := by
      rw [hnil, gather, gather, List.foldlM_nil, List.foldlM_nil]
    rcases hgather .null (hsame.trans h) m hm with hlt | hnull
    · exact .inl hlt
    · rw [Value.mem_nodes_scalar] at hnull
      exact .inl (by simpa [hnull, Value.weight] using hms)
  · rcases hgather document h m hm with hlt | hnode
    · exact .inl hlt
    · exact .inr ⟨hnode, merges_of_gather hsubs hmany hnil h⟩

theorem one_lt_bulk {ms : Members} (h : (Members.get? ms "type").isSome ∨
    ∃ key v, isStruckKey (.text key) = false ∧ Members.get? ms key = some v) :
    1 < bulk (.mapping ms) := by
  rcases h with htype | ⟨key, v, hkey, hv⟩
  · obtain ⟨type, htype⟩ := Option.isSome_iff_exists.mp htype
    have hpos := type.weight_pos
    simp only [bulk, struckBulk, htype, Option.elim_some]
    omega
  · have hlt := weight_lt_bulk hkey hv
    omega

theorem bulk_orEmpty_lt {ms : Members} {v : Value} (h : v.weight < bulk (.mapping ms)) :
    bulk v.orEmpty < bulk (.mapping ms) :=
  Nat.lt_of_le_of_lt (Nat.le_trans (bulk_le_weight _) (weight_orEmpty_le v)) h

/-- There is less to a property that is gathered than to the schema, unless it comes from
elsewhere. -/
theorem bulk_gathered_part {ms : Members} {subs : List Value} {flat : Flat} {p : Part}
    (hextended : extended (.mapping ms) = .ok subs) (hmany : ∀ only, subs ≠ [only])
    (hflat : gather document subs (.mapping ms) = .ok flat)
    (houter : objectLayer flat.toObject hint = .ok outer) (hp : p ∈ outer.parts) :
    bulk p.schema.orEmpty < bulk (.mapping ms) ∨
      (p.schema.orEmpty ∈ document.nodes ∧ Merges (.mapping ms)) := by
  obtain ⟨all, -, hall, -⟩ := extended_ok hextended
  have hms : 1 < bulk (.mapping ms) := one_lt_bulk (.inr ⟨_, _, by simp [isStruckKey], hall⟩)
  have hempty : bulk .empty < bulk (.mapping ms) := Nat.lt_of_le_of_lt (bulk_le_weight _) hms
  rcases gathered_part houter hp with hschema | ⟨m, hm, hschema⟩
  · exact .inl (hschema ▸ hempty)
  · rw [hschema]
    rcases weight_gather hms hextended hmany hflat m hm with hlt | ⟨hnode, hmerges⟩
    · exact .inl (bulk_orEmpty_lt hlt)
    · by_cases htruthy : m.2.isTruthy
      · rw [Value.orEmpty, if_pos htruthy]
        exact .inr ⟨hnode, hmerges⟩
      · rw [Value.orEmpty, if_neg htruthy]
        exact .inl hempty

private theorem bulk_object_part {ms : Members} {p : Part} (hms : 1 < bulk (.mapping ms))
    (houter : objectLayer (.mapping ms) hint = .ok outer) (hp : p ∈ outer.parts) :
    bulk p.schema.orEmpty < bulk (.mapping ms) := by
  rcases objectLayer_part houter hp with hschema | ⟨values, hvalues, hschema⟩ |
    ⟨members, m, hmembers, hm, hschema⟩
  · rw [hschema]
    exact Nat.lt_of_le_of_lt (bulk_le_weight _) hms
  · rw [hschema]
    have hlt := weight_lt_bulk (by simp [isStruckKey]) hvalues
    exact bulk_orEmpty_lt (by omega)
  · rw [hschema]
    have hmembersLt := weight_lt_bulk (by simp [isStruckKey]) hmembers
    have hlt := Value.weight_lt_weightMembers hm
    simp only [Value.weight] at hmembersLt
    exact bulk_orEmpty_lt (by omega)

/-- There is less to a part than to the schema, unless the part is a property that comes from
elsewhere, or the schema is a reference. -/
theorem bulk_part (h : layer document schema hint = .ok outer) {p : Part} (hp : p ∈ outer.parts) :
    bulk p.schema.orEmpty < bulk schema ∨
      (p.schema.orEmpty ∈ document.nodes ∧ Merges schema) ∨
      (isNullable schema = .ok false ∧ schema.mentions "$ref" = .ok true ∧
        bulk p.schema.orEmpty ≤ bulk schema) := by
  obtain ⟨ms, rfl, hlayer⟩ := isLayer_of_ok h
  have hlisted : ∀ {key v elements sub}, isStruckKey (.text key) = false →
      Members.get? ms key = some v → v.elements = .ok elements → sub ∈ elements →
      bulk sub.orEmpty < bulk (.mapping ms) := by
    intro key v elements sub hkey hv helements hsub
    have hle := weight_elements helements hsub
    have hlt := weight_lt_bulk hkey hv
    exact bulk_orEmpty_lt (by omega)
  cases hlayer with
  | optional hnull hinner =>
    obtain rfl := List.mem_singleton.mp hp
    obtain ⟨stripped, rfl, -⟩ := stripNullable_ok hinner
    exact .inl (by simpa using bulk_strip_lt hnull hinner)
  | @reference target hnull htarget =>
    obtain rfl := List.mem_singleton.mp hp
    have hlt := weight_lt_bulk (by simp [isStruckKey]) htarget
    have hle := bulk_le_weight (.mapping [(.text "$ref", target)])
    simp only [Value.weight, Value.weightMembers] at hle
    exact .inr (.inr ⟨hnull, by simp [Members.has, htarget], by
      simp only [Value.orEmpty_mapping]
      omega⟩)
  | extension honly =>
    obtain rfl := List.mem_singleton.mp hp
    obtain ⟨all, elements, hall, helements, -, hfilter⟩ := extended_ok honly
    exact .inl (hlisted (by simp [isStruckKey]) hall helements
      (List.mem_of_mem_filter (hfilter ▸ List.mem_singleton_self _)))
  | merged hextended hmany hflat houter =>
    rcases bulk_gathered_part hextended hmany hflat houter hp with hlt | hnode
    · exact .inl hlt
    · exact .inr (.inl hnode)
  | @choice key _ _ hkey halternatives helements =>
    obtain ⟨sub, hsub, rfl⟩ := List.mem_map.mp hp
    have hstruck : isStruckKey (.text key) = false := by
      rcases hkey with rfl | rfl <;> simp [isStruckKey]
    exact .inl (hlisted hstruck halternatives helements hsub)
  | types htypes =>
    obtain ⟨_, hsub, rfl⟩ := List.mem_map.mp hp
    obtain ⟨t, ht, rfl⟩ := List.mem_map.mp hsub
    exact .inl (by simpa using bulk_typed_lt htypes ht)
  | array htype =>
    obtain rfl := List.mem_singleton.mp hp
    have hms : 1 < bulk (.mapping ms) := one_lt_bulk (.inl (htype ▸ rfl))
    refine .inl (bulk_orEmpty_lt (Nat.lt_of_le_of_lt (weight_orEmpty_le _) ?_))
    cases hitems : Members.get? ms "items" with
    | none => simpa [Value.weight] using hms
    | some items =>
      have hlt := weight_lt_bulk (by simp [isStruckKey]) hitems
      simp only [Option.getD_some]
      omega
  | object hkeys houter =>
    refine .inl (bulk_object_part (one_lt_bulk ?_) houter hp)
    rcases hkeys with htype | hproperties | hadditional
    · exact .inl (htype ▸ rfl)
    · obtain ⟨v, hv⟩ := Option.isSome_iff_exists.mp hproperties
      exact .inr ⟨_, v, by simp [isStruckKey], hv⟩
    · obtain ⟨v, hv⟩ := Option.isSome_iff_exists.mp hadditional
      exact .inr ⟨_, v, by simp [isStruckKey], hv⟩
  | enumeration values => simp at hp
  | primitive q => simp at hp

end OpenApiClient.Schema

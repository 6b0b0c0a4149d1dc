import OpenApiClient.Proofs.HistoryIndependence
import OpenApiClient.Proofs.SettingMembers

/-! # Spellings of null

A schema admits null by a flag, by its types or by its values, or by several of them at once. All
are struck at once, and what is left does not admit null and stays as it is when null is struck
again, unless the one type that is left is a list itself. Schemas that differ in these spellings
alone have types that are optional of the same. -/
namespace OpenApiClient.Schema

open RegistryM

variable {document v w x y : Value} {ms stripped : Members} {types inner : List Value}
  {r s t t' : Registry} {id : TypeId}

/-! ## Striking null again -/

/-- Whether null struck from a list of types leaves one type, which is a list itself. -/
def LeavesList (ms : Members) (inner : List Value) : Prop :=
  ∃ types, Members.get? ms "type" = some (.sequence types) ∧
    types.filter (· != .text "null") = [.sequence inner]

theorem filter_null_eq_self_iff : types.filter (· != .text "null") = types ↔
    .text "null" ∉ types := by
  rw [List.filter_eq_self]
  constructor
  · exact fun h hnull => by simpa using h _ hnull
  · exact fun h t ht => bne_iff_ne.mpr fun heq => h (heq ▸ ht)

private theorem ne_sequence_of_mem {t : Value} (h : t ∈ types) : t ≠ .sequence types := by
  rintro rfl
  have hsize := List.sizeOf_lt_of_mem h
  simp only [Value.sequence.sizeOf_spec] at hsize
  omega

/-- A list of types stays as it is when it lists no null, and two types at least. -/
theorem typeWithoutNull_eq_self_iff :
    typeWithoutNull (.sequence types) = some (.sequence types) ↔
      .text "null" ∉ types ∧ 2 ≤ types.length := by
  rw [← filter_null_eq_self_iff]
  rcases typeWithoutNull_sequence types with ⟨hkept, h⟩ | ⟨only, hkept, h⟩ |
    ⟨first, second, others, hkept, h⟩
  · rw [h, hkept]
    constructor
    · intro hnone
      cases hnone
    · rintro ⟨rfl, hlength⟩
      simp at hlength
  · rw [h, hkept]
    constructor
    · intro honly
      have hmem : only ∈ types := List.mem_of_mem_filter (hkept ▸ List.mem_cons_self)
      exact absurd (Option.some.inj honly) (ne_sequence_of_mem hmem)
    · rintro ⟨rfl, hlength⟩
      simp at hlength
  · rw [h, hkept, Option.some.injEq, Value.sequence.injEq]
    constructor
    · rintro rfl
      exact ⟨rfl, by simp⟩
    · exact fun h => h.1

/-- A list that is left of a schema's types is the one type that is left, or lists no null and two
types at least. -/
theorem typeLeft_eq_sequence (h : (Members.get? ms "type").bind typeWithoutNull =
    some (.sequence inner)) :
    LeavesList ms inner ∨ .text "null" ∉ inner ∧ 2 ≤ inner.length := by
  cases htype : Members.get? ms "type" with
  | none => simp [htype] at h
  | some type =>
    rw [htype, Option.bind_some] at h
    cases type with
    | scalar s => simp [typeWithoutNull] at h
    | mapping members => simp [typeWithoutNull] at h
    | sequence types =>
      rcases typeWithoutNull_sequence types with ⟨-, hleft⟩ | ⟨only, hkept, hleft⟩ |
        ⟨first, second, others, hkept, hleft⟩
      · cases hleft.symm.trans h
      · obtain rfl := Option.some.inj (hleft.symm.trans h)
        exact .inl ⟨types, htype, hkept⟩
      · obtain rfl := Value.sequence.inj (Option.some.inj (hleft.symm.trans h))
        refine .inr ⟨fun hnull => ?_, by simp⟩
        have hmem := hkept ▸ hnull
        simp at hmem

private theorem LeavesList.typeLeft (h : LeavesList ms inner) :
    (Members.get? ms "type").bind typeWithoutNull = some (.sequence inner) := by
  obtain ⟨types, htype, hkept⟩ := h
  rw [htype, Option.bind_some]
  simp only [typeWithoutNull, hkept]

theorem stripNullable_isOk
    (h : ∀ values, Members.get? ms "enum" = some values → values.isSequence) :
    ∃ stripped, stripNullable (.mapping ms) = .ok (.mapping stripped) := by
  have henum : Members.get? (stripTypes (Members.erase ms "nullable")) "enum" =
      Members.get? ms "enum" := by
    rw [get?_stripTypes, if_neg (by decide), Members.get?_erase, if_neg (by decide)]
  simp only [stripNullable, Value.members, bind, Except.bind]
  rw [henum]
  cases hvalues : Members.get? ms "enum" with
  | none => exact ⟨_, rfl⟩
  | some values =>
    obtain ⟨items, rfl⟩ := Value.isSequence_iff.mp (h values hvalues)
    exact ⟨_, rfl⟩

/-- A list of types that is left of a schema stands under its key alone. -/
theorem shows_stripTypes (h : Members.get? (stripTypes ms) "type" = some (.sequence types)) :
    (stripTypes ms).Shows "type" (.sequence types) := by
  have hset : ∀ rest : Value, stripTypes ms = Members.set ms (.text "type") rest →
      (stripTypes ms).Shows "type" (.sequence types) := by
    intro rest heq
    have hshows := Members.shows_set ms "type" rest
    rw [← heq] at hshows
    obtain rfl := Option.some.inj (hshows.get.symm.trans h)
    exact hshows
  cases htype : Members.get? ms "type" with
  | none => simp [get?_stripTypes, htype] at h
  | some type =>
    cases type with
    | scalar s => simp [get?_stripTypes, htype, typeWithoutNull] at h
    | mapping members => simp [get?_stripTypes, htype, typeWithoutNull] at h
    | sequence listed =>
      rcases typeWithoutNull_sequence listed with ⟨-, hleft⟩ | ⟨only, hkept, -⟩ |
        ⟨first, second, others, hkept, -⟩
      · simp [get?_stripTypes, htype, hleft] at h
      · exact hset only (by rw [stripTypes, htype]; simp only [hkept])
      · exact hset (.sequence (first :: second :: others))
          (by rw [stripTypes, htype]; simp only [hkept])

/-- How a schema is stripped of null: of the flag, of its types, and of its values if it has any. -/
theorem stripNullable_eq_ok (h : stripNullable (.mapping ms) = .ok (.mapping stripped)) :
    let rest := stripTypes (Members.erase ms "nullable")
    (Members.get? ms "enum" = none ∧ stripped = rest) ∨
      ∃ values elements, Members.get? ms "enum" = some values ∧ values.elements = .ok elements ∧
        stripped = Members.set rest (.text "enum") (.sequence (elements.filter (· != .null))) := by
  intro rest
  have henum : Members.get? rest "enum" = Members.get? ms "enum" := by
    rw [get?_stripTypes, if_neg (by decide), Members.get?_erase, if_neg (by decide)]
  simp only [stripNullable, except_bind_ok_iff, members_ok_iff, Value.mapping.injEq] at h
  obtain ⟨_, rfl, h⟩ := h
  rw [henum] at h
  cases hvalues : Members.get? ms "enum" with
  | none =>
    rw [hvalues] at h
    exact .inl ⟨rfl, (Value.mapping.inj (Except.ok.inj h)).symm⟩
  | some values =>
    simp only [hvalues, except_bind_ok_iff, except_pure_ok_iff] at h
    obtain ⟨elements, helements, h⟩ := h
    exact .inr ⟨values, elements, rfl, helements, (Value.mapping.inj h).symm⟩

private theorem shows_type_of_stripNullable (h : stripNullable (.mapping ms) = .ok (.mapping stripped))
    (htype : Members.get? stripped "type" = some (.sequence types)) :
    stripped.Shows "type" (.sequence types) := by
  rcases stripNullable_eq_ok h with ⟨-, rfl⟩ | ⟨values, elements, -, -, rfl⟩
  · exact shows_stripTypes htype
  · rw [Members.get?_set, if_neg (by decide)] at htype
    exact (shows_stripTypes htype).set (by decide)

private theorem stripTypes_eq_self (h : stripNullable (.mapping ms) = .ok (.mapping stripped))
    (htype : (Members.get? stripped "type").bind typeWithoutNull = Members.get? stripped "type") :
    stripTypes stripped = stripped := by
  unfold stripTypes
  split
  · rename_i types htypes
    rw [htypes, Option.bind_some] at htype
    obtain ⟨hnull, hlength⟩ := typeWithoutNull_eq_self_iff.mp htype
    rw [filter_null_eq_self_iff.mpr hnull]
    split
    · simp at hlength
    · simp at hlength
    · exact (shows_type_of_stripNullable h htypes).set_eq
  · rfl

/-- Null is struck again without a change when this is so for the type that is left. -/
theorem stripNullable_again_iff (h : stripNullable (.mapping ms) = .ok (.mapping stripped)) :
    stripNullable (.mapping stripped) = .ok (.mapping stripped) ↔
      (Members.get? stripped "type").bind typeWithoutNull = Members.get? stripped "type" := by
  constructor
  · intro hagain
    obtain ⟨_, heq, hstripped⟩ := stripNullable_ok hagain
    obtain rfl := Value.mapping.inj heq
    exact hstripped.type.symm
  · intro htype
    obtain ⟨_, heq, hstripped⟩ := stripNullable_ok h
    obtain rfl := Value.mapping.inj heq
    have hrest : stripTypes (Members.erase stripped "nullable") = stripped := by
      rw [Members.erase_eq_self hstripped.flag, stripTypes_eq_self h htype]
    simp only [stripNullable, Value.members, bind, Except.bind, hrest]
    rcases stripNullable_eq_ok h with ⟨hnone, -⟩ | ⟨values, elements, hvalues, helements, heq⟩
    · rw [hstripped.enum_none hnone]
      rfl
    · have hshows : stripped.Shows "enum" (.sequence (elements.filter (· != .null))) :=
        heq ▸ Members.shows_set _ _ _
      have hfilter : (elements.filter (· != .null)).filter (· != .null) =
          elements.filter (· != .null) := by
        simp only [List.filter_filter, Bool.and_self]
      rw [hshows.get]
      simp only [Value.elements, hfilter, hshows.set_eq]
      rfl

/-- What is left of a schema admits null when the type that is left lists it. -/
theorem isNullable_stripped (h : stripNullable (.mapping ms) = .ok (.mapping stripped)) :
    isNullable (.mapping stripped) = .ok (typesListNull stripped) := by
  obtain ⟨_, heq, hstripped⟩ := stripNullable_ok h
  obtain rfl := Value.mapping.inj heq
  have henum : (Members.get? stripped "enum").elim (.ok false) listsNull = .ok false := by
    cases hvalues : Members.get? ms "enum" with
    | none => rw [hstripped.enum_none hvalues]; rfl
    | some values =>
      obtain ⟨elements, -, hleft⟩ := hstripped.enum_some hvalues
      rw [hleft]
      simp [listsNull]
  rw [isNullable_eq, hstripped.flag, henum, if_neg (by simp)]
  cases typesListNull stripped <;> rfl

/-- Null is struck from a schema once and for all, unless it leaves one type that is a list itself:
what is left admits null when that list does, and stays as it is when that list does. -/
theorem stripped_settled (h : stripNullable (.mapping ms) = .ok (.mapping stripped)) :
    (isNullable (.mapping stripped) = .ok true ↔
        ∃ inner, LeavesList ms inner ∧ .text "null" ∈ inner) ∧
      (stripNullable (.mapping stripped) = .ok (.mapping stripped) ↔
        ∀ inner, LeavesList ms inner → .text "null" ∉ inner ∧ 2 ≤ inner.length) := by
  obtain ⟨_, heq, hstripped⟩ := stripNullable_ok h
  obtain rfl := Value.mapping.inj heq
  rw [isNullable_stripped h, stripNullable_again_iff h, Except.ok.injEq]
  have hleft : ∀ {inner}, LeavesList ms inner →
      Members.get? stripped "type" = some (.sequence inner) :=
    fun hleaves => hstripped.type.trans hleaves.typeLeft
  have hlists : ∀ {inner}, Members.get? stripped "type" = some (.sequence inner) →
      LeavesList ms inner ∨ .text "null" ∉ inner ∧ 2 ≤ inner.length :=
    fun htype => typeLeft_eq_sequence (hstripped.type.symm.trans htype)
  constructor
  · constructor
    · intro hnull
      unfold typesListNull at hnull
      split at hnull
      · rename_i types htypes
        have hmem : .text "null" ∈ types := by simpa using hnull
        exact ⟨types, (hlists htypes).resolve_right fun h => h.1 hmem, hmem⟩
      · cases hnull
    · rintro ⟨inner, hleaves, hnull⟩
      rw [typesListNull, hleft hleaves]
      simpa using hnull
  · constructor
    · intro htype inner hleaves
      rw [hleft hleaves, Option.bind_some] at htype
      exact typeWithoutNull_eq_self_iff.mp htype
    · intro hall
      cases htype : Members.get? stripped "type" with
      | none => rfl
      | some type =>
        cases type with
        | scalar s => rfl
        | mapping members => rfl
        | sequence types =>
          refine typeWithoutNull_eq_self_iff.mpr ?_
          exact (hlists htype).elim (hall types) id

/-! ## Types of schemas that admit null -/

theorem mapping_of_isNullable (h : isNullable v = .ok true) : ∃ ms, v = .mapping ms := by
  rw [isNullable, except_bind_ok_iff] at h
  obtain ⟨ms, hms, -⟩ := h
  exact ⟨ms, members_ok_iff.mp hms⟩

private theorem layer_of_isNullable {hint : String} (hnull : isNullable v = .ok true)
    (hx : stripNullable v = .ok x) :
    layer document v hint = .ok (singleLayer .optional x hint) := by
  obtain ⟨ms, rfl⟩ := mapping_of_isNullable hnull
  simp only [layer, Value.members, bind, Except.bind, hnull, hx, if_true]
  rfl

/-- A type that is known for a schema that admits null is optional of one that is known for a schema
alike to the stripped one. -/
theorem Sound.optional_of_isNullable (hdocument : document.IsJson) (h : Sound document r [])
    (hv : Tame document v) (hnull : isNullable v = .ok true) (hx : stripNullable v = .ok x)
    {ι : Identity} (hι : identityOf v = .ok ι) (hid : r.Knows ι id) :
    ∃ inner κ item, r.body? id = some (.optional item) ∧ Tame document inner ∧ Alike x inner ∧
      identityOf inner = .ok κ ∧ r.Knows κ item := by
  obtain ⟨ms, rfl⟩ := mapping_of_isNullable hnull
  have hshape : ∀ text, ι ≠ .reference text := by
    rintro text rfl
    rcases identityOf_ok_iff.mp hι with ⟨hisRef, -⟩ | ⟨-, key, -, hkey⟩
    · simp only [isReference, Value.mentions_mapping, hnull, except_bind_ok_iff] at hisRef
      obtain ⟨mentions, -, hisRef⟩ := hisRef
      cases mentions <;> simp [bind, Except.bind, pure, Except.pure] at hisRef
    · cases hkey
  obtain ⟨w, limit, hw, ⟨hlayer, hbody, hids, htable⟩, ⟨text, hreference, -⟩ | ⟨-, -, hform⟩⟩ :=
    h.depicted hv hι hid
  · exact absurd hreference (hshape text)
  · obtain ⟨ns, rfl⟩ := mapping_of_form hv.json hform
    have halike := alikeMembers_of_form hv.json hform
    have hnull' : isNullable (.mapping ns) = .ok true :=
      isNullable_alike hv.json hv.self halike ▸ hnull
    obtain ⟨left, hleft⟩ := stripNullable_isOk fun values => hw.self.enum
    rw [layer_of_isNullable hnull' hleft] at hlayer
    obtain rfl := Except.ok.inj hlayer
    obtain ⟨item, others, ⟨κ, hκ, hitem⟩, -, rfl⟩ := List.forall₂_cons_left_iff.mp hids
    have htame : Tame document (Value.mapping left) := by
      simpa using hw.leads hdocument
        (.part ⟨"", _, layer_of_isNullable hnull' hleft, _, List.mem_cons_self, rfl⟩)
    obtain ⟨stripped, rfl, hstripped⟩ := stripNullable_ok hx
    obtain ⟨_, heq, hstripped'⟩ := stripNullable_ok hleft
    obtain rfl := Value.mapping.inj heq
    exact ⟨_, κ, item, hbody, htame,
      .members (stripNullable_alike hv.json hv.self halike hstripped hstripped'),
      by simpa using hκ, (htable hitem).1⟩

/-- Types of schemas that admit null, and are the same without it, are optional of types that are
the same to every depth. -/
theorem Sound.optional_unfold_eq (hdocument : document.IsJson) (hr : Sound document r [])
    (hs : Sound document s []) (hv : Tame document v) (hw : Tame document w)
    (hnull : isNullable v = .ok true) (hnull' : isNullable w = .ok true)
    (hx : stripNullable v = .ok x) (hy : stripNullable w = .ok y)
    (hkey : structuralKey x = structuralKey y) {ι κ : Identity} (hι : identityOf v = .ok ι)
    (hκ : identityOf w = .ok κ) {i j : TypeId} (hi : r.Knows ι i) (hj : s.Knows κ j) :
    ∃ a b, r.body? i = some (.optional a) ∧ s.body? j = some (.optional b) ∧
      (r.body? a).isSome ∧ ∀ n, r.unfold n a = s.unfold n b := by
  obtain ⟨inner, ι', a, hbody, hinner, halike, hι', ha⟩ :=
    hr.optional_of_isNullable hdocument hv hnull hx hι hi
  obtain ⟨inner', κ', b, hbody', hinner', halike', hκ', hb⟩ :=
    hs.optional_of_isNullable hdocument hw hnull' hy hκ hj
  obtain ⟨ms, rfl⟩ := mapping_of_isNullable hnull
  obtain ⟨ns, rfl⟩ := mapping_of_isNullable hnull'
  have hxJson := isJson_stripNullable hv.json hx
  have hyJson := isJson_stripNullable hw.json hy
  have hxy : Alike x y := .same (form_of_structuralKey hxJson hyJson hkey)
  have hagree : Agree document r s a b :=
    ⟨inner, inner', ι', κ', hinner, hinner', halike.symm.trans hinner.json hxJson
      (hxy.trans hxJson hyJson halike'), hι', hκ', ha, hb⟩
  obtain ⟨body, _, hsome, -, -⟩ := hagree.bodies hdocument hr hs
  exact ⟨a, b, hbody, hbody', by rw [hsome, Option.isSome_some],
    fun n => hagree.unfold_eq hdocument hr hs n⟩

theorem Wraps.eq_of_optional {nullable : Bool} {i i' a : TypeId} (h : Wraps r nullable i i' t)
    (hbody : r.body? i = some (.optional a)) : i' = i ∧ t = r := by
  cases h with
  | same _ => exact ⟨rfl, rfl⟩
  | optional _ hnot _ => exact absurd hbody (hnot a)

/-- A call without a preferred name, for a schema that admits null, gives the type that is known for
the schema. -/
theorem resolve_nullable_sound (hdocument : document.IsJson) (hv : Tame document v)
    (hnull : isNullable v = .ok true) (hsound : Sound document r []) {nullable : Bool}
    {hint : String} (h : outcome (Schema.resolve document none v nullable hint) r = (.ok id, t)) :
    Sound document t [] ∧ ∃ ι, identityOf v = .ok ι ∧ t.Knows ι id := by
  obtain ⟨ms, rfl⟩ := mapping_of_isNullable hnull
  have htame : Tame document (Value.mapping ms).orEmpty := by simpa using hv
  obtain ⟨inner, s, hs, ht, -, hwraps, ⟨-, ι, hι, hknows⟩ | ⟨hne, -⟩⟩ :=
    resolve_sound hdocument htame hsound h
  · rw [Value.orEmpty_mapping] at hι
    obtain ⟨x, hx⟩ := stripNullable_isOk fun values => hv.self.enum
    obtain ⟨_, _, a, hbody, -⟩ := hs.optional_of_isNullable hdocument hv hnull hx hι hknows
    obtain ⟨rfl, rfl⟩ := hwraps.eq_of_optional hbody
    exact ⟨ht, ι, hι, hknows⟩
  · exact absurd rfl hne

/-- All spellings of null mean the same. Null is struck from a schema once and for all, unless it
leaves one type that is a list itself. Schemas that admit null, and are the same without it, have
types that are optional of the same, after any histories in which no call failed. -/
theorem null_spellings :
    (∀ ms, (∀ values, Members.get? ms "enum" = some values → values.isSequence) →
      ∃ stripped admits, stripNullable (.mapping ms) = .ok (.mapping stripped) ∧
        isNullable (.mapping stripped) = .ok admits ∧
        (admits = true ↔ ∃ inner, LeavesList ms inner ∧ .text "null" ∈ inner) ∧
        (stripNullable (.mapping stripped) = .ok (.mapping stripped) ↔
          ∀ inner, LeavesList ms inner → .text "null" ∉ inner ∧ 2 ≤ inner.length)) ∧
      ∀ {document v w x y r s t t' i j} {calls calls' : List Call} {ids ids' : List TypeId}
        (nullable nullable' : Bool) (hint hint' : String), document.IsJson →
        (∀ call ∈ calls ++ calls', Tame document call.schema.orEmpty) → Tame document v →
        Tame document w → isNullable v = .ok true → isNullable w = .ok true →
        stripNullable v = .ok x → stripNullable w = .ok y → structuralKey x = structuralKey y →
        outcome (calls.mapM (Call.run document)) {} = (.ok ids, r) →
        outcome (calls'.mapM (Call.run document)) {} = (.ok ids', s) →
        outcome (Schema.resolve document none v nullable hint) r = (.ok i, t) →
        outcome (Schema.resolve document none w nullable' hint') s = (.ok j, t') →
        ∃ a b, t.body? i = some (.optional a) ∧ t'.body? j = some (.optional b) ∧
          (t.body? a).isSome ∧ ∀ n, t.unfold n a = t'.unfold n b := by
  constructor
  · intro ms henum
    obtain ⟨stripped, hstripped⟩ := stripNullable_isOk henum
    obtain ⟨hadmits, hagain⟩ := stripped_settled hstripped
    rw [isNullable_stripped hstripped, Except.ok.injEq] at hadmits
    exact ⟨stripped, _, hstripped, isNullable_stripped hstripped, hadmits, hagain⟩
  · intro document v w x y r s t t' i j calls calls' ids ids' nullable nullable' hint hint'
      hdocument hcalls hv hw hnull hnull' hx hy hkey hr hs hi hj
    obtain ⟨hcallsLeft, hcallsRight⟩ := List.forall_mem_append.mp hcalls
    have hsoundLeft := calls_sound hdocument hcallsLeft sound_empty hr
    have hsoundRight := calls_sound hdocument hcallsRight sound_empty hs
    obtain ⟨ht, ι, hι, hknows⟩ := resolve_nullable_sound hdocument hv hnull hsoundLeft hi
    obtain ⟨ht', κ, hκ, hknows'⟩ := resolve_nullable_sound hdocument hw hnull' hsoundRight hj
    exact ht.optional_unfold_eq hdocument ht' hv hw hnull hnull' hx hy hkey hι hκ hknows hknows'

def listedLetter : Members :=
  [(.text "type", .sequence [.text "null", .text "string"]),
    (.text "enum", .sequence [.null, .text "a"])]

def flaggedLetter : Members :=
  [(.text "nullable", .bool true), (.text "type", .text "string"),
    (.text "enum", .sequence [.text "a"])]

theorem null_spellings_letter :
    (∃ stripped, stripNullable (.mapping listedLetter) = .ok (.mapping stripped) ∧
      isNullable (.mapping stripped) = .ok false ∧
      stripNullable (.mapping stripped) = .ok (.mapping stripped)) ∧
    ∃ ids r i t j t' a b, outcome ([holderCall].mapM (Call.run listDocument)) {} = (.ok ids, r) ∧
      outcome (Schema.resolve listDocument none (.mapping listedLetter) false "") r = (.ok i, t) ∧
      outcome (Schema.resolve listDocument none (.mapping flaggedLetter) true "") {} =
        (.ok j, t') ∧
      t.body? i = some (.optional a) ∧ t'.body? j = some (.optional b) ∧
      (t.body? a).isSome ∧ ∀ n, t.unfold n a = t'.unfold n b := by
  have hdocument : listDocument.IsJson := by decide
  have hregular : AllRegular listDocument := by decide
  have hleaves : ∀ inner, ¬ LeavesList listedLetter inner := by
    rintro inner ⟨types, htypes, hkept⟩
    obtain rfl := Value.sequence.inj (Option.some.inj htypes)
    cases hkept
  constructor
  · obtain ⟨stripped, admits, hstripped, hadmits, hlists, hagain⟩ :=
      null_spellings.1 listedLetter fun values hvalues => by
        obtain rfl := Option.some.inj hvalues
        rfl
    obtain rfl : admits = false := by
      rw [← Bool.not_eq_true, hlists]
      exact fun ⟨inner, hinner, _⟩ => hleaves inner hinner
    exact ⟨stripped, hstripped, hadmits, hagain.mpr fun inner hinner => absurd hinner
      (hleaves inner)⟩
  · have hcalls : ∀ call ∈ [holderCall] ++ [], Tame listDocument call.schema.orEmpty := by
      intro call hcall
      obtain rfl := List.mem_singleton.mp hcall
      exact tame_of_allRegular hregular (by decide) (by decide)
    have hv : Tame listDocument (.mapping listedLetter) :=
      tame_of_allRegular hregular (by decide) (by decide)
    have hw : Tame listDocument (.mapping flaggedLetter) :=
      tame_of_allRegular hregular (by decide) (by decide)
    obtain ⟨a, b, ha, hb, hab⟩ := null_spellings.2 false true "" "" hdocument hcalls hv hw
      (v := .mapping listedLetter) (w := .mapping flaggedLetter) rfl rfl rfl rfl rfl rfl rfl rfl rfl
    exact ⟨_, _, _, _, _, _, a, b, rfl, rfl, rfl, ha, hb, hab⟩

/-- An extension under a title of an object whose properties are a list of a pair. The first key of
the pair names the property. -/
def pairedExtension (types : Members) (title key : String) : Value :=
  .mapping (types ++ [(.text "title", .text title), (.text "allOf", .sequence [
    .mapping [(.text "properties", .sequence [
      .mapping [(.text key, .scalar (.int 1)), (.text "", .scalar (.int 2))]])],
    .mapping [(.text "type", .text "object")]])])

def listedObject : Members := [(.text "type", .sequence [.text "object", .text "null"])]

def flaggedObject : Members := [(.text "nullable", .bool true), (.text "type", .text "object")]

/-- Where a list of types lists another one, null may be left; and where properties are a list, one
spelling of null may be that of an earlier schema with other properties, while another is not. -/
theorem null_spellings_differ :
    (∃ ms stripped, stripNullable (.mapping ms) = .ok stripped ∧ isNullable stripped = .ok true ∧
      stripNullable stripped ≠ .ok stripped) ∧
    ∃ v w x ids r i t j t' a b n, isNullable v = .ok true ∧ isNullable w = .ok true ∧
      stripNullable v = .ok x ∧ stripNullable w = .ok x ∧
      outcome ([⟨none, pairedExtension listedObject "B" "description", false, ""⟩].mapM
        (Call.run .empty)) {} = (.ok ids, r) ∧
      outcome (Schema.resolve .empty none v false "") r = (.ok i, t) ∧
      outcome (Schema.resolve .empty none w false "") r = (.ok j, t') ∧
      t.body? i = some (.optional a) ∧ t'.body? j = some (.optional b) ∧
      t.unfold n a ≠ t'.unfold n b := by
  constructor
  · exact ⟨[(.text "type", .sequence [.text "null", .sequence [.text "null", .text "string"]])],
      _, rfl, rfl, by decide⟩
  · refine ⟨pairedExtension listedObject "A" "title", pairedExtension flaggedObject "A" "title",
      _, _, _, _, _, _, _, _, _, 1, rfl, rfl, rfl, rfl, rfl, rfl, rfl, rfl, rfl, fun h => ?_⟩
    have hkeys := keys_of_unfold [⟨.text "description", 0, false, .text ""⟩]
      [⟨.text "title", 0, false, .text ""⟩] rfl rfl h
    exact absurd hkeys (by decide)

end OpenApiClient.Schema

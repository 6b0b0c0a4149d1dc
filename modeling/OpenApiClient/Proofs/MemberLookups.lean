import OpenApiClient.Proofs.ValueNodes
import OpenApiClient.Schema.Nullability

/-! # Looking up members that were set or erased

Setting or erasing a key changes what stands under that key alone. Striking null from a schema
touches the flag, the type and the enumeration, and leaves all other members as they are. -/
namespace OpenApiClient

namespace Members

theorem has_eq_isSome (ms : Members) (key : String) : has ms key = (get? ms key).isSome := rfl

theorem get?_isSome_iff {ms : Members} {key : String} :
    (get? ms key).isSome ↔ ∃ m ∈ ms, m.1 = .text key := by
  simp only [get?, at?, Option.isSome_map, List.find?_isSome, Scalar.sameKey_text_iff]

theorem get?_eq_none_iff {ms : Members} {key : String} :
    get? ms key = none ↔ ∀ m ∈ ms, m.1 ≠ .text key := by
  rw [← Option.not_isSome_iff_eq_none, get?_isSome_iff]
  push Not
  rfl

private theorem get?_append (ms more : Members) (key : String) :
    get? (ms ++ more) key = (get? ms key).or (get? more key) := by
  induction ms with
  | nil => simp
  | cons m rest ih =>
    obtain ⟨k, v⟩ := m
    simp only [List.cons_append, get?_cons, ih]
    split <;> simp

private theorem get?_replace (ms : Members) (key other : String) (v : Value) :
    get? (ms.map fun m => if m.1.sameKey (.text key) then (m.1, v) else m) other =
      if other = key then (get? ms key).map fun _ => v else get? ms other := by
  induction ms with
  | nil => simp
  | cons m rest ih =>
    obtain ⟨k, w⟩ := m
    by_cases hk : k = .text key
    · subst hk
      simp only [List.map_cons, Scalar.sameKey_self, if_true, get?_cons, ih, Scalar.text.injEq]
      by_cases ho : other = key
      · simp [ho]
      · simp [ho, Ne.symm ho]
    · have hsame : k.sameKey (.text key) = false := by
        simpa using mt Scalar.sameKey_text_iff.mp hk
      simp only [List.map_cons, hsame, Bool.false_eq_true, if_false, get?_cons, ih, hk]
      by_cases ho : other = key
      · subst ho
        simp [hk]
      · simp [ho]

theorem get?_set (ms : Members) (key other : String) (v : Value) :
    get? (set ms (.text key) v) other = if other = key then some v else get? ms other := by
  unfold set
  split
  · rename_i hany
    have hsome : (get? ms key).isSome := by
      simpa [get?_isSome_iff, Scalar.sameKey_text_iff] using hany
    obtain ⟨w, hw⟩ := Option.isSome_iff_exists.mp hsome
    rw [get?_replace, hw]
    rfl
  · rename_i hany
    have hnone : get? ms key = none := by
      rw [get?_eq_none_iff]
      intro m hm hkey
      exact hany (List.any_eq_true.mpr ⟨m, hm, Scalar.sameKey_text_iff.mpr hkey⟩)
    rw [get?_append, get?_cons]
    by_cases ho : other = key
    · simp [ho, hnone]
    · have : (Scalar.text key = .text other) ↔ False := by simpa using Ne.symm ho
      simp [ho, this]

theorem get?_erase (ms : Members) (key other : String) :
    get? (erase ms key) other = if other = key then none else get? ms other := by
  unfold erase
  induction ms with
  | nil => simp
  | cons m rest ih =>
    obtain ⟨k, w⟩ := m
    by_cases hk : k = .text key
    · subst hk
      simp only [List.filter_cons, Scalar.sameKey_self, Bool.not_true, Bool.false_eq_true, if_false,
        ih, get?_cons, Scalar.text.injEq]
      by_cases ho : other = key
      · simp [ho]
      · simp [ho, Ne.symm ho]
    · have hsame : k.sameKey (.text key) = false := by
        simpa using mt Scalar.sameKey_text_iff.mp hk
      simp only [List.filter_cons, hsame, Bool.not_false, if_true, get?_cons, ih]
      by_cases ho : other = key
      · subst ho
        simp [hk]
      · simp [ho]

theorem mem_set {ms : Members} {key : Scalar} {v : Value} {m : Scalar × Value}
    (h : m ∈ set ms key v) : m ∈ ms ∨ m.2 = v := by
  unfold set at h
  split at h
  · obtain ⟨n, hn, rfl⟩ := List.mem_map.mp h
    split
    · exact .inr rfl
    · exact .inl hn
  · rcases List.mem_append.mp h with h | h
    · exact .inl h
    · exact .inr (by rw [List.mem_singleton.mp h])

private theorem mem_of_mem_erase {ms : Members} {key : String} {m : Scalar × Value}
    (h : m ∈ erase ms key) : m ∈ ms := List.mem_of_mem_filter h

/-- Members whose keys satisfy a condition that the key set does not are left as they are. -/
theorem filter_set {ms : Members} {key : String} {v : Value} {p : Scalar → Bool}
    (hp : p (.text key) = false) :
    (set ms (.text key) v).filter (fun m => p m.1) = ms.filter fun m => p m.1 := by
  unfold set
  split
  · clear * - hp
    induction ms with
    | nil => rfl
    | cons m rest ih =>
      by_cases hk : m.1.sameKey (.text key)
      · obtain ⟨k, w⟩ := m
        obtain rfl := Scalar.sameKey_text_iff.mp hk
        simp only [List.map_cons, Scalar.sameKey_self, if_true, List.filter_cons, hp,
          Bool.false_eq_true, if_false]
        exact ih
      · simp only [List.map_cons, hk, Bool.false_eq_true, if_false, List.filter_cons]
        split <;> simp only [ih]
  · simp [List.filter_append, hp]

private theorem filter_erase {ms : Members} {key : String} {p : Scalar → Bool}
    (hp : p (.text key) = false) :
    (erase ms key).filter (fun m => p m.1) = ms.filter fun m => p m.1 := by
  unfold erase
  rw [List.filter_filter]
  refine List.filter_congr fun m _ => ?_
  by_cases hk : m.1 = .text key
  · simp [hk, hp]
  · have hsame : m.1.sameKey (.text key) = false := by
      simpa using mt Scalar.sameKey_text_iff.mp hk
    simp [hsame]

end Members

namespace Schema

def typesListNull (ms : Members) : Bool :=
  match Members.get? ms "type" with
  | some (.sequence types) => types.contains (.text "null")
  | _ => false

theorem isNullable_eq (ms : Members) :
    isNullable (.mapping ms) =
      if Members.get? ms "nullable" = some (.bool true) then .ok true
      else if typesListNull ms then .ok true
      else (Members.get? ms "enum").elim (.ok false) listsNull := by
  by_cases hflag : Members.get? ms "nullable" = some (.bool true)
  · simp only [isNullable, Value.members, bind, Except.bind, hflag, if_true]
    rfl
  · obtain ⟨type, htype⟩ : ∃ type, Members.get? ms "type" = type := ⟨_, rfl⟩
    obtain ⟨values, hvalues⟩ : ∃ values, Members.get? ms "enum" = values := ⟨_, rfl⟩
    simp only [isNullable, Value.members, bind, Except.bind, hflag, if_false, typesListNull, htype,
      hvalues]
    rcases type with _ | ⟨_ | types | _⟩
    · cases values <;> rfl
    · cases values <;> rfl
    · dsimp only
      split
      · rfl
      · cases values <;> rfl
    · cases values <;> rfl

def typeWithoutNull : Value → Option Value
  | .sequence types =>
    match types.filter (· != .text "null") with
    | [] => none
    | [only] => some only
    | rest => some (.sequence rest)
  | v => some v

/-- Without null nothing is left of a list of types, or the one type, or the list of all others. -/
theorem typeWithoutNull_sequence (types : List Value) :
    (types.filter (· != .text "null") = [] ∧ typeWithoutNull (.sequence types) = none) ∨
      (∃ only, types.filter (· != .text "null") = [only] ∧
        typeWithoutNull (.sequence types) = some only) ∨
      ∃ first second others, types.filter (· != .text "null") = first :: second :: others ∧
        typeWithoutNull (.sequence types) = some (.sequence (first :: second :: others)) := by
  rcases hkept : types.filter (· != .text "null") with _ | ⟨first, _ | ⟨second, others⟩⟩
  · exact .inl ⟨hkept, by simp only [typeWithoutNull, hkept]⟩
  · exact .inr (.inl ⟨first, hkept, by simp only [typeWithoutNull, hkept]⟩)
  · exact .inr (.inr ⟨first, second, others, hkept, by simp only [typeWithoutNull, hkept]⟩)

/-- What passes from a list to its members, and from those to a list of them that is not empty,
passes from a type to what is left of it without null. -/
theorem typeWithoutNull_keeps {P : Value → Prop} {type rest : Value} (h : P type)
    (hrest : typeWithoutNull type = some rest)
    (hitems : ∀ {types}, P (.sequence types) → ∀ t ∈ types, P t)
    (hlist : ∀ {types}, types ≠ [] → (∀ t ∈ types, P t) → P (.sequence types)) : P rest := by
  cases type with
  | scalar s => exact Option.some.inj hrest ▸ h
  | mapping ms => exact Option.some.inj hrest ▸ h
  | sequence types =>
    have hkept : ∀ t ∈ types.filter (· != .text "null"), P t :=
      fun t ht => hitems h t (List.mem_of_mem_filter ht)
    rcases typeWithoutNull_sequence types with ⟨-, htype⟩ | ⟨only, heq, htype⟩ |
      ⟨first, second, others, heq, htype⟩
    · cases htype.symm.trans hrest
    · obtain rfl := Option.some.inj (htype.symm.trans hrest)
      exact hkept only (heq ▸ List.mem_cons_self)
    · obtain rfl := Option.some.inj (htype.symm.trans hrest)
      exact hlist (List.cons_ne_nil _ _) (heq ▸ hkept)

/-- The members of a schema after null was struck from it. -/
structure Stripped (ms stripped : Members) : Prop where
  flag : Members.get? stripped "nullable" = none
  type : Members.get? stripped "type" = (Members.get? ms "type").bind typeWithoutNull
  enum_none : Members.get? ms "enum" = none → Members.get? stripped "enum" = none
  enum_some {values : Value} : Members.get? ms "enum" = some values → ∃ elements,
    values.elements = .ok elements ∧
      Members.get? stripped "enum" = some (.sequence (elements.filter (· != .null)))
  other {key : String} : key ≠ "nullable" → key ≠ "type" → key ≠ "enum" →
    Members.get? stripped key = Members.get? ms key
  others {p : Scalar → Bool} : p (.text "nullable") = false → p (.text "type") = false →
    p (.text "enum") = false → stripped.filter (fun m => p m.1) = ms.filter fun m => p m.1
  mem {m : Scalar × Value} : m ∈ stripped → m ∈ ms ∨
    (∃ type, Members.get? ms "type" = some type ∧ typeWithoutNull type = some m.2) ∨
    ∃ values elements, Members.get? ms "enum" = some values ∧ values.elements = .ok elements ∧
      m.2 = .sequence (elements.filter (· != .null))

/-- Stripping the type erases it, sets it, or leaves all members as they are. -/
theorem stripTypes_cases (ms : Members) :
    (Members.get? ms "type").bind typeWithoutNull = none ∧
        stripTypes ms = Members.erase ms "type" ∨
      (∃ type rest, Members.get? ms "type" = some type ∧ typeWithoutNull type = some rest ∧
        stripTypes ms = Members.set ms (.text "type") rest) ∨
      (Members.get? ms "type").bind typeWithoutNull = Members.get? ms "type" ∧
        stripTypes ms = ms := by
  unfold stripTypes
  cases htype : Members.get? ms "type" with
  | none => exact .inr (.inr ⟨rfl, rfl⟩)
  | some type =>
    cases type with
    | scalar s => exact .inr (.inr ⟨rfl, rfl⟩)
    | mapping members => exact .inr (.inr ⟨rfl, rfl⟩)
    | sequence types =>
      simp only [Option.bind_some]
      rcases typeWithoutNull_sequence types with ⟨hkept, htype⟩ | ⟨only, hkept, htype⟩ |
        ⟨first, second, others, hkept, htype⟩
      · exact .inl ⟨htype, by rw [hkept]⟩
      · exact .inr (.inl ⟨_, only, rfl, htype, by rw [hkept]⟩)
      · exact .inr (.inl ⟨_, _, rfl, htype, by rw [hkept]⟩)

theorem get?_stripTypes (ms : Members) (key : String) :
    Members.get? (stripTypes ms) key =
      if key = "type" then (Members.get? ms "type").bind typeWithoutNull
      else Members.get? ms key := by
  rcases stripTypes_cases ms with ⟨hnone, h⟩ | ⟨type, rest, htype, hrest, h⟩ | ⟨hsame, h⟩
  · rw [h, Members.get?_erase, hnone]
  · rw [h, Members.get?_set, htype, Option.bind_some, hrest]
  · rw [h, hsame]
    by_cases hkey : key = "type" <;> simp [hkey]

/-- Members whose keys are neither the flag nor the type are left as they are. -/
theorem filter_stripTypes {ms : Members} {p : Scalar → Bool} (hflag : p (.text "nullable") = false)
    (htype : p (.text "type") = false) :
    (stripTypes (Members.erase ms "nullable")).filter (fun m => p m.1) =
      ms.filter fun m => p m.1 := by
  rcases stripTypes_cases (Members.erase ms "nullable") with ⟨-, h⟩ | ⟨_, _, -, -, h⟩ | ⟨-, h⟩
  · rw [h, Members.filter_erase htype, Members.filter_erase hflag]
  · rw [h, Members.filter_set htype, Members.filter_erase hflag]
  · rw [h, Members.filter_erase hflag]

private theorem mem_stripTypes {ms : Members} {m : Scalar × Value}
    (hm : m ∈ stripTypes (Members.erase ms "nullable")) :
    m ∈ ms ∨ ∃ type, Members.get? ms "type" = some type ∧ typeWithoutNull type = some m.2 := by
  rcases stripTypes_cases (Members.erase ms "nullable") with ⟨-, h⟩ | ⟨type, rest, htype, hrest, h⟩
    | ⟨-, h⟩
  · exact .inl (Members.mem_of_mem_erase (Members.mem_of_mem_erase (h ▸ hm)))
  · rcases Members.mem_set (h ▸ hm) with hm | hm
    · exact .inl (Members.mem_of_mem_erase hm)
    · rw [Members.get?_erase] at htype
      exact .inr ⟨type, htype, hm ▸ hrest⟩
  · exact .inl (Members.mem_of_mem_erase (h ▸ hm))

theorem stripNullable_ok {ms : Members} {inner : Value}
    (h : stripNullable (.mapping ms) = .ok inner) :
    ∃ stripped, inner = .mapping stripped ∧ Stripped ms stripped := by
  have htypes : ∀ key, Members.get? (stripTypes (Members.erase ms "nullable")) key =
      if key = "nullable" then none
      else if key = "type" then (Members.get? ms "type").bind typeWithoutNull
      else Members.get? ms key := by
    intro key
    rw [get?_stripTypes, Members.get?_erase, Members.get?_erase]
    by_cases hkey : key = "nullable" <;> simp [hkey]
  have henum : Members.get? (stripTypes (Members.erase ms "nullable")) "enum" =
      Members.get? ms "enum" := by simp [htypes]
  simp only [stripNullable, Value.members, bind, Except.bind] at h
  rw [henum] at h
  cases hvalues : Members.get? ms "enum" with
  | none =>
    simp only [hvalues, pure, Except.pure, Except.ok.injEq] at h
    refine ⟨_, h.symm, ?_⟩
    exact {
      flag := by simp [htypes]
      type := by simp [htypes]
      enum_none := by simp [htypes]
      enum_some := by simp [hvalues]
      other := by
        intro key hflag htype _
        simp [htypes, hflag, htype]
      others := fun hflag htype _ => filter_stripTypes hflag htype
      mem := fun hm => (mem_stripTypes hm).imp_right .inl }
  | some values =>
    cases helements : values.elements with
    | error fault => simp [hvalues, helements] at h
    | ok elements =>
      simp only [hvalues, helements, pure, Except.pure, Except.ok.injEq] at h
      refine ⟨_, h.symm, ?_⟩
      exact {
        flag := by simp [Members.get?_set, htypes]
        type := by simp [Members.get?_set, htypes]
        enum_none := by simp [hvalues]
        enum_some := by
          intro found hfound
          obtain rfl := Option.some.inj (hvalues.symm.trans hfound)
          exact ⟨elements, helements, by simp [Members.get?_set]⟩
        other := by
          intro key hflag htype henum
          simp [Members.get?_set, htypes, hflag, htype, henum]
        others := by
          intro p hflag htype henum
          rw [Members.filter_set henum, filter_stripTypes hflag htype]
        mem := by
          intro m hm
          rcases Members.mem_set hm with hm | hm
          · exact (mem_stripTypes hm).imp_right .inl
          · exact .inr (.inr ⟨values, elements, hvalues, helements, hm⟩) }

end Schema

end OpenApiClient

import OpenApiClient.Proofs.FreeResolution
import OpenApiClient.Proofs.NullSpellings
import OpenApiClient.Proofs.SameTypes

/-! # Lists of one type

A schema may list the one type that it has. Where the type does not decide, since the schema admits
null, refers, extends, chooses or enumerates texts, the list is read as its type. Where the type
decides, the list becomes a union of one member, which is written as that member and is of another
kind. -/
namespace OpenApiClient

namespace Members

theorem sorted_kinds {ms ns : Members} (h : sorted ms = .ok ns) :
    (∀ m ∈ ms, ∃ key, m.1 = .text key) ∨ ∀ m ∈ ms, ¬ ∃ key, m.1 = .text key := by
  induction ms generalizing ns with
  | nil => exact .inl (by simp)
  | cons m rest ih =>
    obtain ⟨others, hothers, hm⟩ := except_bind_ok_iff.mp h
    have hperm := sorted_perm hothers
    cases others with
    | nil =>
      obtain rfl := hperm.symm.eq_nil
      by_cases hkey : ∃ key, m.1 = .text key
      · exact .inl (List.forall_mem_singleton.mpr hkey)
      · exact .inr (List.forall_mem_singleton.mpr hkey)
    | cons n others =>
      -- The key is compared with the first one of those that are sorted.
      have hn : n ∈ rest := hperm.subset List.mem_cons_self
      have hsame : (∃ key, m.1 = .text key) ↔ ∃ key, n.1 = .text key := by
        simp only [insertSorted] at hm
        constructor
        · rintro ⟨key, hkey⟩
          cases hn : n.1 <;> simp [hkey, hn, Scalar.keyLe?, Scalar.number?] at hm ⊢
        · rintro ⟨key, hkey⟩
          cases hm' : m.1 <;> simp [hkey, hm', Scalar.keyLe?, Scalar.number?] at hm ⊢
      rcases ih hothers with hall | hnone
      · exact .inl (List.forall_mem_cons.mpr ⟨hsame.mpr (hall n hn), hall⟩)
      · exact .inr (List.forall_mem_cons.mpr ⟨fun hm => hnone n hn (hsame.mp hm), hnone⟩)

end Members

namespace Schema

open RegistryM

variable {document : Value} {ms : Members} {t hint : String} {r s u : Registry} {i j : TypeId}

def withType (ms : Members) (type : Value) : Value := .mapping (Members.set ms (.text "type") type)

def listed (t : String) : Value := .sequence [.text t]

/-- Whether it is the type that decides of which kind a schema is. -/
structure TypeDecides (ms : Members) : Prop where
  notNull : isNullable (.mapping (Members.erase ms "type")) = .ok false
  reference : Members.get? ms "$ref" = none
  extension : Members.has ms "allOf" = false
  oneOf : Members.get? ms "oneOf" = none
  anyOf : Members.get? ms "anyOf" = none
  values : textValues? ((Members.get? ms "enum").getD .null) = .ok none

instance (ms : Members) : Decidable (TypeDecides ms) :=
  decidable_of_iff (isNullable (.mapping (Members.erase ms "type")) = .ok false ∧
      Members.get? ms "$ref" = none ∧ Members.has ms "allOf" = false ∧
      Members.get? ms "oneOf" = none ∧ Members.get? ms "anyOf" = none ∧
      textValues? ((Members.get? ms "enum").getD .null) = .ok none)
    ⟨fun ⟨h, h', h'', h''', h'''', h'''''⟩ => ⟨h, h', h'', h''', h'''', h'''''⟩,
      fun h => ⟨h.1, h.2, h.3, h.4, h.5, h.6⟩⟩

/-! ## Layers -/

theorem get?_withType {key : String} (hkey : key ≠ "type") (type : Value) :
    Members.get? (Members.set ms (.text "type") type) key = Members.get? ms key := by
  rw [Members.get?_set, if_neg hkey]

theorem get_withType {key : String} (hkey : key ≠ "type") (type type' : Value) :
    (withType ms type).get key = (withType ms type').get key := by
  rw [withType, withType, get_mapping, get_mapping, get?_withType hkey, get?_withType hkey]

theorem require_withType {key : String} (hkey : key ≠ "type") (type type' : Value) :
    (withType ms type).require key = (withType ms type').require key := by
  simp only [Value.require, withType, Value.get?_mapping, get?_withType hkey]

theorem orEmpty_withType (type : Value) : (withType ms type).orEmpty = withType ms type :=
  Value.orEmpty_mapping _

theorem isNullable_withType {type : Value} (h : ∀ types, type = .sequence types →
    .text "null" ∉ types) :
    isNullable (withType ms type) = isNullable (.mapping (Members.erase ms "type")) := by
  have htypes : typesListNull (Members.set ms (.text "type") type) = false := by
    rw [typesListNull, Members.get?_set, if_pos rfl]
    cases type with
    | sequence types => simpa using h types rfl
    | _ => rfl
  have herased : typesListNull (Members.erase ms "type") = false := by
    rw [typesListNull, Members.get?_erase, if_pos rfl]
  rw [withType, isNullable_eq, isNullable_eq, htypes, herased, get?_withType (by decide),
    get?_withType (by decide)]
  simp [Members.get?_erase]

theorem isNullable_listed (ht : t ≠ "null") :
    isNullable (withType ms (listed t)) = isNullable (withType ms (.text t)) := by
  rw [isNullable_withType, isNullable_withType]
  · intro types htypes
    cases htypes
  · rintro types hlisted
    obtain rfl := Value.sequence.inj hlisted
    simpa using Ne.symm ht

private theorem stripNullable_listed (ht : t ≠ "null") :
    stripNullable (withType ms (listed t)) = stripNullable (withType ms (.text t)) := by
  have hstrip : stripTypes (Members.erase (Members.set ms (.text "type") (listed t)) "nullable") =
      stripTypes (Members.erase (Members.set ms (.text "type") (.text t)) "nullable") := by
    have hkept : [Value.text t].filter (· != .text "null") = [.text t] := by simpa using ht
    rw [Members.erase_set (by decide), Members.erase_set (by decide), stripTypes, stripTypes,
      Members.get?_set, if_pos rfl, Members.get?_set, if_pos rfl]
    simp only [listed, hkept, Members.set_set]
  simp only [stripNullable, withType, Value.members, bind, Except.bind, hstrip]

private theorem isReference_listed (ht : t ≠ "null") :
    isReference (withType ms (listed t)) = isReference (withType ms (.text t)) := by
  rw [isReference, isReference, isNullable_listed ht, withType, withType, Value.mentions_mapping,
    Value.mentions_mapping, Members.has, Members.has, get?_withType (by decide),
    get?_withType (by decide)]

private theorem add_withType (f : Flat) (type type' : Value) :
    f.add (withType ms type) = f.add (withType ms type') := by
  rw [Flat.add, Flat.add, get_withType (by decide) type type',
    get_withType (by decide) type type']

private theorem extensionLayer_withType (type type' : Value) :
    extensionLayer document (withType ms type) hint =
      extensionLayer document (withType ms type') hint := by
  have hall : (withType ms type).require "allOf" = (withType ms type').require "allOf" :=
    require_withType (by decide) type type'
  have hgather : ∀ subs, gather document subs (withType ms type) =
      gather document subs (withType ms type') := by
    intro subs
    simp only [gather, add_withType _ type type']
  simp only [extensionLayer, extended, hall, hgather]

theorem layer_eq_plainLayer (h : TypeDecides ms) {type : Value} (htype : ∀ types,
    type = .sequence types → .text "null" ∉ types) :
    layer document (withType ms type) hint = plainLayer (withType ms type) hint := by
  have hnull : isNullable (withType ms type) = .ok false :=
    (isNullable_withType htype).trans h.notNull
  rw [withType] at hnull ⊢
  simp only [layer, Value.members, bind, Except.bind, hnull, Bool.false_eq_true, if_false]
  rw [get?_withType (by decide), h.reference, Members.has, get?_withType (by decide),
    ← Members.has, h.extension, get?_withType (by decide), h.oneOf, get?_withType (by decide),
    h.anyOf]
  rfl

theorem isReference_of_typeDecides (h : TypeDecides ms) (type : Value) :
    isReference (withType ms type) = .ok false := by
  rw [isReference, withType, Value.mentions_mapping, Members.has, get?_withType (by decide),
    h.reference]
  rfl

/-- Where the type decides, a list of one type is a union of that type. -/
theorem layer_listed_of_typeDecides (h : TypeDecides ms) (ht : t ≠ "null") :
    layer document (withType ms (listed t)) hint =
      .ok (unionLayer .union [withType ms (.text t)] hint) := by
  rw [layer_eq_plainLayer h fun types htypes => by
    obtain rfl := Value.sequence.inj htypes
    simpa using Ne.symm ht]
  simp only [plainLayer, withType, Value.members, bind, Except.bind, get_mapping]
  rw [get?_withType (by decide), h.values, Members.get?_set, if_pos rfl]
  simp only [listed, Option.getD_some, Members.set_set, unionLayer, List.map_cons, List.map_nil]
  rfl

/-- Where the type does not decide, a list of one type is read as that type. -/
theorem layer_listed_of_not_typeDecides (h : ¬ TypeDecides ms) (ht : t ≠ "null") :
    layer document (withType ms (listed t)) hint = layer document (withType ms (.text t)) hint := by
  have hstrip : stripNullable (withType ms (listed t)) = stripNullable (withType ms (.text t)) :=
    stripNullable_listed ht
  have hnull : isNullable (withType ms (listed t)) = isNullable (withType ms (.text t)) :=
    isNullable_listed ht
  have hone : isNullable (withType ms (.text t)) = isNullable (.mapping (Members.erase ms "type")) :=
    isNullable_withType fun types htypes => by cases htypes
  have hextension : extensionLayer document (withType ms (listed t)) hint =
      extensionLayer document (withType ms (.text t)) hint := extensionLayer_withType _ _
  simp only [withType] at hstrip hnull hone hextension ⊢
  simp only [layer, Value.members, bind, Except.bind, hnull, hstrip, hextension,
    get?_withType (show "$ref" ≠ "type" by decide),
    get?_withType (show "oneOf" ≠ "type" by decide),
    get?_withType (show "anyOf" ≠ "type" by decide), Members.has,
    get?_withType (show "allOf" ≠ "type" by decide)]
  rcases hadmits : isNullable (.mapping (Members.set ms (.text "type") (.text t))) with
    fault | _ | _
  · rfl
  · simp only [Bool.false_eq_true, if_false]
    cases hreference : Members.get? ms "$ref" with
    | some target => rfl
    | none =>
      cases hall : (Members.get? ms "allOf").isSome with
      | true => rfl
      | false =>
        cases honeOf : Members.get? ms "oneOf" with
        | some alternatives => rfl
        | none =>
          cases hanyOf : Members.get? ms "anyOf" with
          | some alternatives => rfl
          | none =>
            have hvalues : textValues? ((Members.get? ms "enum").getD .null) ≠ .ok none :=
              fun hvalues => h ⟨hone ▸ hadmits, hreference, hall, honeOf, hanyOf, hvalues⟩
            simp only [Bool.false_eq_true, if_false, plainLayer, Value.members, bind, Except.bind,
              get_mapping, get?_withType (show "enum" ≠ "type" by decide)]
            rcases henum : textValues? ((Members.get? ms "enum").getD .null) with
              fault | _ | values
            · rfl
            · exact absurd henum hvalues
            · rfl
  · rfl

/-! ## Keys -/

theorem mem_withType_iff {m : Scalar × Value} (hm : m.1 ≠ .text "type") (type type' : Value) :
    m ∈ Members.set ms (.text "type") type ↔ m ∈ Members.set ms (.text "type") type' := by
  have hfilter : ∀ type : Value, (Members.set ms (.text "type") type).filter
      (fun m => m.1 != .text "type") = ms.filter fun m => m.1 != .text "type" :=
    fun type => @Members.filter_set ms "type" type (· != .text "type") (by simp)
  have hmem : ∀ type : Value, m ∈ Members.set ms (.text "type") type ↔
      m ∈ ms.filter fun m => m.1 != .text "type" := by
    intro type
    rw [← hfilter type, List.mem_filter]
    simp [hm]
  rw [hmem type, hmem type']

theorem namesModel_listed (h : namesModel (Members.set ms (.text "type") (listed t))) (t' : Value) :
    namesModel (Members.set ms (.text "type") t') := by
  simp only [namesModel, Members.has, get?_withType (show "properties" ≠ "type" by decide),
    get?_withType (show "enum" ≠ "type" by decide), Bool.or_eq_true] at h ⊢
  rcases h with h | h
  · exact .inl h
  · rw [Members.get?_set, if_pos rfl] at h
    simp [listed] at h

/-- The list of a type has a key where the type has one. -/
theorem structuralKey_listed {key : String}
    (h : structuralKey (withType ms (.text t)) = .ok key) :
    ∃ key', structuralKey (withType ms (listed t)) = .ok key' := by
  rw [structuralKey_eq, except_map_ok_iff] at h
  obtain ⟨w, hw, -⟩ := h
  obtain ⟨vs, ws, hvs, hws, -⟩ := form_mapping_ok_iff.mp hw
  have hshows := Members.shows_set ms "type" (.text t)
  have hlisted := Members.shows_set ms "type" (listed t)
  have htypeKept : ∀ named, isKept false named (.text "type") := by decide
  have hnames : namesModel (Members.set ms (.text "type") (listed t)) →
      ∀ t', namesModel (Members.set ms (.text "type") t') := namesModel_listed
  generalize hone : Members.set ms (.text "type") (.text t) = ns at hvs hshows
  -- The type stays in the form, so the keys that stay are all texts.
  have htype : (.text "type", .text t) ∈ ns.filter fun m => isKept false (namesModel ns) m.1 :=
    List.mem_filter.mpr ⟨Value.mem_of_get?_eq_some hshows.get, htypeKept _⟩
  have htexts : ∀ m ∈ ns, isKept false (namesModel ns) m.1 → ∃ key, m.1 = .text key := by
    have hkeys := forall₂_keys hvs
    intro m hm hkept
    obtain ⟨n, hn, hnm, -⟩ := (exists_of_forall₂ hvs).1 m (List.mem_filter.mpr ⟨hm, hkept⟩)
    obtain ⟨n', hn', hn'type, -⟩ := (exists_of_forall₂ hvs).1 _ htype
    rcases Members.sorted_kinds hws with hall | hnone
    · exact hnm ▸ hall n hn
    · exact absurd ⟨"type", hn'type⟩ (hnone n' hn')
  have hforms : ∀ m ∈ (Members.set ms (.text "type") (listed t)).filter
      (fun m => isKept false (namesModel (Members.set ms (.text "type") (listed t))) m.1),
      ∃ n : Scalar × Value, (n.1 = m.1 ∧ form (holdsProperties false m.1) m.2 = .ok n.2) ∧
        ∃ key, n.1 = .text key := by
    intro m hm
    obtain ⟨hm, hkept⟩ := List.mem_filter.mp hm
    by_cases hkey : m.1 = .text "type"
    · have hvalue : m.2 = listed t := hlisted.only m hm (Scalar.sameKey_text_iff.mpr hkey)
      refine ⟨(m.1, listed t), ⟨rfl, ?_⟩, "type", hkey⟩
      rw [hkey, hvalue]
      rfl
    · have hkept' : isKept false (namesModel ns) m.1 := by
        simp only [isKept, Bool.not_eq_true', Bool.and_eq_false_iff] at hkept ⊢
        refine hkept.imp_right fun htitle => ?_
        rw [Bool.not_eq_false', Bool.and_eq_true] at htitle ⊢
        exact ⟨htitle.1, hone ▸ hnames htitle.2 (.text t)⟩
      have hm' : m ∈ ns := hone ▸ (mem_withType_iff hkey _ _).mp hm
      obtain ⟨n, -, hnm, hform⟩ := (exists_of_forall₂ hvs).1 m
        (List.mem_filter.mpr ⟨hm', hkept'⟩)
      exact ⟨n, ⟨hnm, hform⟩, hnm ▸ htexts m hm' hkept'⟩
  obtain ⟨ns', hns'⟩ := exists_forall₂ hforms
  obtain ⟨sorted, hsorted⟩ := Members.sorted_of_text fun n hn => by
    obtain ⟨m, -, -, hkey⟩ := (exists_of_forall₂ hns').2 n hn
    exact hkey
  refine ⟨(Value.mapping sorted).written, ?_⟩
  rw [structuralKey_eq, withType,
    form_mapping_ok_iff.mpr ⟨ns', sorted, hns'.imp fun _ _ h => h.1, hsorted, rfl⟩]
  rfl

private theorem modelName_withType (type type' : Value) (body : Body) :
    modelName (withType ms type) hint body = modelName (withType ms type') hint body := by
  unfold modelName
  rw [get_withType (by decide) type type']

private theorem describe_listed (h : ¬ TypeDecides ms) (ht : t ≠ "null") (f : Resolver) :
    describe document f (withType ms (listed t)) hint =
      describe document f (withType ms (.text t)) hint := by
  rw [describe, describe, layer_listed_of_not_typeDecides h ht,
    get_withType (by decide) (listed t) (.text t)]

/-! ## Runs -/

/-- A type that is settled under another key is settled alike, but for the key. -/
theorem settle_key {v w : Value} {e : Entry} (key' : String) {key : String}
    (hname : modelName w hint e.body = modelName v hint e.body)
    (h : outcome (settle v hint key e) r = (.ok i, s)) :
    s.anonymous = (key, i) :: r.anonymous ∧
      outcome (settle w hint key' e) r =
        (.ok i, { s with anonymous := (key', i) :: r.anonymous }) := by
  obtain ⟨rfl, hneeds | ⟨text, hneeds, htext⟩⟩ := settle_ok_iff.mp h
  · exact ⟨rfl, outcome_settle_unnamed hneeds⟩
  · exact ⟨rfl, outcome_settle_named hneeds (hname.trans htext)⟩

/-- Where the type does not decide, a list of one type resolves as that type, from the start. -/
theorem resolveFreely_listed (h : ¬ TypeDecides ms) (ht : t ≠ "null") {fuel more : Nat}
    (hle : fuel ≤ more)
    (hone : outcome (resolveFreely document fuel (withType ms (.text t)) hint) {} = (.ok i, r)) :
    ∃ s, outcome (resolveFreely document more (withType ms (listed t)) hint) {} = (.ok i, s) ∧
      SameTypes r s := by
  cases fuel with
  | zero => simp [resolveFreely] at hone
  | succ fuel =>
    obtain ⟨more, rfl⟩ := Nat.exists_eq_add_of_lt hle
    have hdeeper : ∀ v hint r, Repeats r (resolveFreely document fuel v hint)
        (resolveFreely document (fuel + more) v hint) :=
      resolveFreely_repeats (Nat.le_add_right _ _)
    have hlooks := hone
    rw [← resolveWith_nil_eq_freely] at hlooks
    have hisRef' : isReference (withType ms (listed t)).orEmpty =
        isReference (withType ms (.text t)).orEmpty := by
      rw [orEmpty_withType, orEmpty_withType, isReference_listed ht]
    rcases resolveWith_ok hlooks with ⟨reference, hisRef, hreference, -⟩ | ⟨hisRef, key, hkey, -⟩
    · have hrequire : (withType ms (listed t)).orEmpty.require "$ref" =
          (withType ms (.text t)).orEmpty.require "$ref" := by
        rw [orEmpty_withType, orEmpty_withType]
        exact require_withType (by decide) _ _
      rw [resolveFreely_reference hisRef hreference] at hone
      rw [resolveFreely_reference (hisRef'.trans hisRef) (hrequire.trans hreference)]
      exact ⟨r, (resolveRef_repeats hdeeper reference _).ok hone, .refl r⟩
    · rw [resolveFreely_new hisRef hkey rfl] at hone
      rw [orEmpty_withType] at hone hkey
      obtain ⟨key', hkey'⟩ := structuralKey_listed hkey
      rw [resolveFreely_new (hisRef'.trans hisRef) ((orEmpty_withType _).symm ▸ hkey') rfl,
        orEmpty_withType]
      obtain ⟨e, u, hdescribe, hsettle⟩ := bind_ok_iff.mp hone
      have hdescribe' := (describe_repeats hdeeper _ hint _).ok hdescribe
      rw [← describe_listed h ht] at hdescribe'
      obtain ⟨hanonymous, hsettle'⟩ := settle_key key'
        (modelName_withType (listed t) (.text t) e.body) hsettle
      refine ⟨_, bind_ok_iff.mpr ⟨e, u, hdescribe', hsettle'⟩, rfl, fun inner => ?_⟩
      dsimp only
      rw [hanonymous, lookup_optionalKey_cons hkey, lookup_optionalKey_cons hkey']

/-- Where the type decides, a list of one type resolves as that type does, and then to a union of
it. -/
theorem resolveFreely_union (h : TypeDecides ms) (ht : t ≠ "null") {fuel more : Nat}
    (hlt : fuel < more)
    (hone : outcome (resolveFreely document fuel (withType ms (.text t)) hint) {} = (.ok i, r)) :
    ∃ key description, structuralKey (withType ms (listed t)) = .ok key ∧
      outcome (resolveFreely document more (withType ms (listed t)) hint) {} =
        (.ok r.entries.size, r.settled key { body := .union [i], description }) := by
  obtain ⟨fuel, rfl⟩ : ∃ fewer, fuel = fewer + 1 :=
    Nat.exists_eq_succ_of_ne_zero fun hzero => by simp [hzero, resolveFreely] at hone
  obtain ⟨more, rfl⟩ := Nat.exists_eq_add_of_lt hlt
  have hpart : outcome (resolvePart (resolveFreely document (fuel + 1 + more))
      ⟨withType ms (.text t), hint, false⟩) {} = (.ok i, r) := by
    rw [resolvePart, outcome_bind,
      (resolveFreely_repeats (Nat.le_add_right _ _) _ hint _).ok hone]
    rfl
  have hisRef := isReference_of_typeDecides h
  obtain ⟨key, hkey⟩ : ∃ key, structuralKey (withType ms (.text t)) = .ok key := by
    rw [← resolveWith_nil_eq_freely] at hone
    rcases resolveWith_ok hone with ⟨_, htrue, -⟩ | ⟨-, key, hkey, -⟩
    · rw [orEmpty_withType, hisRef] at htrue
      cases htrue
    · exact ⟨key, orEmpty_withType _ ▸ hkey⟩
  obtain ⟨key', hkey'⟩ := structuralKey_listed hkey
  obtain ⟨description, hdescription⟩ :
      ∃ description, (withType ms (listed t)).get "description" = .ok description := ⟨_, rfl⟩
  refine ⟨key', description.orBlank, hkey', ?_⟩
  rw [resolveFreely_new ((orEmpty_withType _).symm ▸ hisRef _) ((orEmpty_withType _).symm ▸ hkey')
    rfl, orEmpty_withType]
  simp only [outcome_bind, outcome_lift, describe, hdescription, layer_listed_of_typeDecides h ht,
    unionLayer, List.map_cons, List.map_nil, List.mapM_cons, List.mapM_nil, hpart, outcome_pure]
  rfl

/-! ## Depths -/

private theorem weightMembers_replace {v w : Value} (h : w.weight = v.weight + 1) (key : Scalar) :
    Value.weightMembers (ms.map fun m => if m.1.sameKey key then (m.1, w) else m) =
      Value.weightMembers (ms.map fun m => if m.1.sameKey key then (m.1, v) else m) +
        ms.countP fun m => m.1.sameKey key := by
  induction ms with
  | nil => rfl
  | cons m rest ih =>
    rw [List.map_cons, List.map_cons, List.countP_cons]
    by_cases hm : m.1.sameKey key
    · simp only [hm, if_true, Value.weightMembers, ih, h]
      omega
    · simp only [hm, Bool.false_eq_true, if_false, Value.weightMembers, ih]
      omega

private theorem weightMembers_append (ms more : Members) :
    Value.weightMembers (ms ++ more) = Value.weightMembers ms + Value.weightMembers more := by
  induction ms with
  | nil => simp [Value.weightMembers]
  | cons m rest ih =>
    rw [List.cons_append, Value.weightMembers, Value.weightMembers, ih]
    omega

private theorem resolveDepth_listed (document : Value) (ms : Members) (t : String) :
    resolveDepth document (withType ms (.text t)) <
      resolveDepth document (withType ms (listed t)) := by
  have hlisted : (listed t).weight = (Value.text t).weight + 1 := rfl
  have hweight : (withType ms (.text t)).weight < (withType ms (listed t)).weight := by
    simp only [withType, Value.weight, Members.set]
    split
    · rename_i hany
      have hcount : 0 < ms.countP fun m => m.1.sameKey (.text "type") := by
        obtain ⟨m, hm, hkey⟩ := List.any_eq_true.mp hany
        exact List.countP_pos_iff.mpr ⟨m, hm, hkey⟩
      rw [weightMembers_replace hlisted]
      omega
    · rw [weightMembers_append, weightMembers_append]
      simp only [Value.weightMembers, hlisted]
      omega
  exact Nat.pow_lt_pow_left (by omega) (by decide)

/-! ## Types -/

def Kind.isProper : Kind → Bool
  | .union | .optional | .synonym | .enumeration => false
  | _ => true

theorem Body.isEnd_of_isProper {b : Body} (h : b.kind.isProper) : b.isEnd := by
  cases b with
  | synonym item => cases h
  | optional item => cases h
  | _ => rfl

private theorem isProper_of_objectLayer {schema : Value} {outer : Layer} {ids : List TypeId}
    (h : objectLayer schema hint = .ok outer) : (outer.frame.fill ids).kind.isProper := by
  obtain ⟨_, -, ⟨_, _, -, -, -, rfl⟩ | ⟨-, rfl⟩⟩ := objectLayer_ok h
  · rfl
  · rfl

private theorem isProper_of_typeDecides (h : TypeDecides ms) {outer : Layer} {ids : List TypeId}
    (houter : layer document (withType ms (.text t)) hint = .ok outer) :
    (outer.frame.fill ids).kind.isProper := by
  rw [layer_eq_plainLayer h fun types htypes => by cases htypes] at houter
  simp only [plainLayer, withType, except_bind_ok_iff, members_ok_iff, Value.mapping.injEq,
    get_mapping, Except.ok.injEq] at houter
  obtain ⟨_, rfl, _, rfl, values, hvalues, houter⟩ := houter
  rw [get?_withType (by decide), h.values] at hvalues
  obtain rfl := Except.ok.inj hvalues
  simp only [except_bind_ok_iff, Except.ok.injEq] at houter
  obtain ⟨type, htype, houter⟩ := houter
  split at houter
  · simp [Members.get?_set] at htype
  · simp only [except_bind_ok_iff, except_pure_ok_iff] at houter
    obtain ⟨_, -, p, -, rfl⟩ := houter
    rfl
  · exact except_pure_ok_iff.mp houter ▸ rfl
  · exact except_pure_ok_iff.mp houter ▸ rfl
  · exact except_pure_ok_iff.mp houter ▸ rfl
  · simp only [except_bind_ok_iff, except_pure_ok_iff] at houter
    obtain ⟨_, -, rfl⟩ := houter
    rfl
  · split at houter
    · exact isProper_of_objectLayer houter
    · exact except_pure_ok_iff.mp houter ▸ rfl

/-- Where the type decides, a schema with one type has a type of a proper kind. -/
theorem body_of_typeDecides (h : TypeDecides ms) {fuel : Nat}
    (hone : outcome (resolveFreely document fuel (withType ms (.text t)) hint) {} = (.ok i, r)) :
    ∃ b, r.body? i = some b ∧ b.kind.isProper := by
  rw [← resolveWith_nil_eq_freely] at hone
  cases fuel with
  | zero => simp [resolveWith] at hone
  | succ fuel =>
    rcases resolveWith_ok hone with ⟨_, hisRef, -⟩ |
      ⟨-, key, -, ⟨hknown, -⟩ | ⟨e, s, -, -, hdescribe, rfl, hsettles⟩⟩
    · rw [orEmpty_withType, isReference_of_typeDecides h] at hisRef
      cases hisRef
    · cases hknown
    · rw [orEmpty_withType] at hdescribe
      obtain ⟨_, outer, ids, -, houter, -, rfl⟩ := describe_ok_iff.mp hdescribe
      obtain ⟨e, hbody, hentries, -, -⟩ := hsettles.remembers
      exact ⟨_, by rw [body?_push_self e hentries, hbody], isProper_of_typeDecides h houter⟩

/-! ## A list of one type -/

/-- Whether a type of the second registry is what becomes of a type of the first one by listing
it: the same type where the type does not decide, and the union of it alone where it does. -/
inductive ListedAs (ms : Members) (r : Registry) (i : TypeId) (s : Registry) : TypeId → Prop
  | same (h : ¬ TypeDecides ms) (htypes : SameTypes r s) : ListedAs ms r i s i
  | union {j : TypeId} {b : Body} (h : TypeDecides ms)
      (hkept : ∀ k < r.entries.size, s.entries[k]? = r.entries[k]?) (hi : i < r.entries.size)
      (hbody : r.body? i = some b) (hproper : b.kind.isProper)
      (hunion : s.Unnamed j (.union [i])) : ListedAs ms r i s j

/-- What a list of one type resolves to, at the start of a run. -/
theorem resolve_listed (ht : t ≠ "null")
    (hone : outcome (Schema.resolve document none (withType ms (.text t)) false hint) {} =
      (.ok i, r)) :
    ∃ j s, outcome (Schema.resolve document none (withType ms (listed t)) false hint) {} =
      (.ok j, s) ∧ ListedAs ms r i s j := by
  have hmade : ({} : Registry).Made := .refl
  obtain ⟨-, -, hi⟩ := hmade.resolve hone
  have hdepth := resolveDepth_listed document ms t
  rw [outcome_resolve, orEmpty_withType] at hone
  rw [outcome_resolve, orEmpty_withType]
  by_cases h : TypeDecides ms
  · obtain ⟨key, description, hkey, hunion⟩ := resolveFreely_union h ht hdepth hone
    obtain ⟨b, hbody, hproper⟩ := body_of_typeDecides h hone
    refine ⟨_, _, hunion, .union h (fun k hk => ?_) hi hbody hproper
      ⟨{ body := .union [i], description }, ?_, rfl, rfl⟩⟩
    · rw [Registry.settled, Registry.push, Array.getElem?_push_lt hk, Array.getElem?_eq_getElem hk]
    · simp [Registry.settled, Registry.push]
  · obtain ⟨s, hs, htypes⟩ := resolveFreely_listed h ht (Nat.le_of_lt hdepth) hone
    exact ⟨i, s, hs, .same h htypes⟩

end Schema

end OpenApiClient

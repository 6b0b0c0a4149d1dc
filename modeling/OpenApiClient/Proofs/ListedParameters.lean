import OpenApiClient.Operation.Parameter
import OpenApiClient.Proofs.SingleTypes

/-! # Parameters with a list of one type

A parameter is classified by the kind of its type. Where a list of one type is read as that type the
parameter comes out the same; where the list becomes a union the value is written as any value is,
and nothing stands for it when it is not given. -/
namespace OpenApiClient

open Schema Schema.RegistryM

variable {α β γ δ : Type} {document : Value} {ms ps : Members} {t hint identifier : String}
  {r s : Registry} {i j : TypeId} {k : Kind}

/-! ## Steps that mirror others -/

/-- Whether a step from the second registry succeeds where one from the first registry does, with
related answers and registries. -/
def Mirrors (R : α → Registry → β → Registry → Prop) (r s : Registry) (m : RegistryM α)
    (m' : RegistryM β) : Prop :=
  ∀ a u, outcome m r = (.ok a, u) → ∃ b v, outcome m' s = (.ok b, v) ∧ R a u b v

namespace Mirrors

variable {R : α → Registry → β → Registry → Prop} {S : γ → Registry → δ → Registry → Prop}
  {m : RegistryM α} {m' : RegistryM β} {f : α → RegistryM γ} {f' : β → RegistryM δ}

theorem of_ok {a : α} {b : β} {u v : Registry} (ha : outcome m r = (.ok a, u))
    (hb : outcome m' s = (.ok b, v)) (h : R a u b v) : Mirrors R r s m m' := by
  intro a' u' ha'
  obtain ⟨hok, rfl⟩ := Prod.mk.inj (ha.symm.trans ha')
  obtain rfl := Except.ok.inj hok
  exact ⟨b, v, hb, h⟩

theorem pure {a : α} {b : β} (h : R a r b s) : Mirrors R r s (pure a) (pure b) :=
  .of_ok rfl rfl h

theorem throw_bind (fault : Fault) (f : α → RegistryM γ) (m' : RegistryM δ) :
    Mirrors S r s (throw fault >>= f) m' := by
  intro c w h
  obtain ⟨_, _, hthrow, -⟩ := bind_ok_iff.mp h
  cases hthrow

theorem bind (hm : Mirrors R r s m m')
    (hf : ∀ a u b v, R a u b v → Mirrors S u v (f a) (f' b)) :
    Mirrors S r s (m >>= f) (m' >>= f') := by
  intro c w h
  obtain ⟨a, u, ha, hc⟩ := bind_ok_iff.mp h
  obtain ⟨b, v, hb, hab⟩ := hm a u ha
  obtain ⟨d, x, hd, hcd⟩ := hf a u b v hab c w hc
  exact ⟨d, x, bind_ok_iff.mpr ⟨b, v, hb, hd⟩, hcd⟩

theorem lift_bind {x : Except Fault α} {y : Except Fault β}
    (h : ∀ a, x = .ok a → ∃ b, y = .ok b ∧ Mirrors S r s (f a) (f' b)) :
    Mirrors S r s ((liftM x : RegistryM α) >>= f) ((liftM y : RegistryM β) >>= f') := by
  intro c w hc
  obtain ⟨a, hx, hc⟩ := lift_bind_ok_iff.mp hc
  obtain ⟨b, hy, hf⟩ := h a hx
  obtain ⟨d, v, hd, hcd⟩ := hf c w hc
  exact ⟨d, v, lift_bind_ok_iff.mpr ⟨b, hy, hd⟩, hcd⟩

theorem look_bind {x y : Except Fault α} {f' : α → RegistryM δ} (hxy : y = x)
    (h : ∀ a, x = .ok a → Mirrors S r s (f a) (f' a)) :
    Mirrors S r s ((liftM x : RegistryM α) >>= f) ((liftM y : RegistryM α) >>= f') :=
  .lift_bind fun a ha => ⟨a, hxy.trans ha, h a ha⟩

private theorem get_bind {f : Registry → RegistryM γ} {f' : Registry → RegistryM δ}
    (h : Mirrors S r s (f r) (f' s)) : Mirrors S r s (get >>= f) (get >>= f') := by
  intro c w hc
  rw [outcome_bind_of_ok (outcome_get r)] at hc
  obtain ⟨d, v, hd, hcd⟩ := h c w hc
  exact ⟨d, v, by rw [outcome_bind_of_ok (outcome_get s), hd], hcd⟩

end Mirrors

/-! ## Runs of a schema with its type and with its type listed -/

namespace Schema

theorem ListedAs.logged (h : ListedAs ms r i s j) (record : LogRecord) :
    ListedAs ms (r.logged record) i (s.logged record) j := by
  cases h with
  | same h htypes => exact .same h (htypes.logged record)
  | union h hkept hi hbody hproper hunion => exact .union h hkept hi hbody hproper hunion

structure Paired (ms : Members) (t : String) (i : TypeId) (r : Registry) (j : TypeId)
    (s : Registry) : Prop where
  types : ListedAs ms r i s j
  made : r.Made
  madeListed : s.Made
  recalls : r.Recalls (withType ms (.text t)) i
  recallsListed : s.Recalls (withType ms (listed t)) j

theorem Paired.logged (h : Paired ms t i r j s) (record : LogRecord) :
    Paired ms t i (r.logged record) j (s.logged record) :=
  ⟨h.types.logged record, h.made.logged record, h.madeListed.logged record,
    h.recalls.logged record, h.recallsListed.logged record⟩

theorem resolve_mirrors (ht : t ≠ "null") (document : Value) (ms : Members) (hint : String) :
    Mirrors (Paired ms t) {} {}
      (Schema.resolve document none (withType ms (.text t)) false hint)
      (Schema.resolve document none (withType ms (listed t)) false hint) := by
  intro i r hone
  obtain ⟨j, s, hs, hlisted⟩ := resolve_listed ht hone
  have hmade : ({} : Registry).Made := .refl
  exact ⟨j, s, hs, hlisted, (hmade.resolve hone).1, (hmade.resolve hs).1,
    recalls_of_resolve hone, recalls_of_resolve hs⟩

end Schema

namespace Operation

variable {shared shared' : Members} {settings : Settings} {parameter parameter' : Value}
  {component : String} {p q : Parameter}

private theorem schemaDescription_listed (h : Paired ms t i r j s) :
    schemaDescription s (withType ms (listed t)) j =
      schemaDescription r (withType ms (.text t)) i := by
  have hdocs : (withType ms (.text t)).mentions "$ref" = .ok true → s.docs j = r.docs i := by
    intro hmentions
    cases h.types with
    | same _ htypes => exact htypes.docs i
    | union h =>
      rw [withType, Value.mentions_mapping, Members.has, get?_withType (by decide),
        h.reference] at hmentions
      cases hmentions
  have hmentions : (withType ms (listed t)).mentions "$ref" =
      (withType ms (.text t)).mentions "$ref" := by
    rw [withType, withType, Value.mentions_mapping, Value.mentions_mapping, Members.has,
      Members.has, get?_withType (by decide), get?_withType (by decide)]
  rw [schemaDescription, schemaDescription, get_withType (by decide) (listed t) (.text t),
    hmentions]
  refine bind_congr fun description => bind_congr fun own => ?_
  split
  · cases hrefers : (withType ms (.text t)).mentions "$ref" with
    | error fault => rfl
    | ok refers =>
      cases refers with
      | false => rfl
      | true => exact hdocs hrefers
  · rfl

end Operation

/-! ## Texts of unions of one type -/

namespace Schema

private theorem Body.typeText_union_singleton (child : View → TypeId → Except Fault String)
    (view : View)
    (i : TypeId) : (Body.union [i]).typeText child view = child view i := by
  simp only [Body.typeText, List.mapM_cons, List.mapM_nil, bind, Except.bind]
  cases child view i <;> rfl

theorem ListedAs.typeText (h : ListedAs ms r i s j) (hs : s.Made) (modelsModule : Value)
    (view : View) : s.typeText modelsModule view j = r.typeText modelsModule view i := by
  cases h with
  | same _ htypes => exact htypes.typeText modelsModule view i
  | union _ hkept hi _ _ hunion =>
    rw [Registry.typeText, hunion.typeTextWith hs.wellFormed, Body.typeText_union_singleton]
    exact Registry.typeTextWith_congr _ (fun k hk => hkept k (Nat.lt_of_le_of_lt hk hi)) view

theorem Registry.Unnamed.lt {b : Body} (h : r.Unnamed j b) : j < r.entries.size := by
  obtain ⟨e, he, -⟩ := h
  exact (Array.getElem?_eq_some_iff.mp he).1

/-- A type that was wrapped is written as before, and as admitting null. -/
theorem typeText_wrapped {j' : TypeId} {u : Registry} (hu : u.Made) (hkept : s.Extends u)
    (hj : j < s.entries.size) (hwrapped : u.Unnamed j' (.optional j)) (modelsModule : Value)
    (view : View) :
    u.typeText modelsModule view j' = (do return (← s.typeText modelsModule view j) ++ " | None") := by
  have htext : u.typeTextWith (Registry.qualifier modelsModule) view j =
      s.typeText modelsModule view j :=
    Registry.typeTextWith_congr _ (fun k hk => hkept.entry (Nat.lt_of_le_of_lt hk hj)) view
  rw [Registry.typeText, hwrapped.typeTextWith hu.wellFormed, Body.typeText, htext]

end Schema

/-! ## What stands for a parameter that is not given -/

namespace Operation

/-- What is found of a parameter: nothing stands for one that is required, and for another one the empty
preset of its type or, where the type has none, null, which the type is made to admit. -/
inductive Finds (document schema : Value) (i : TypeId) (identifier hint : String) (r : Registry) :
    Bool → TypeId × Option String × Option String → Registry → Prop
  | required : Finds document schema i identifier hint r true (i, none, none) r
  | preset {k : Kind} {preset : String} (hkind : r.baseKind? i = some k)
      (hpreset : emptyPreset? k = some preset) :
      Finds document schema i identifier hint r false
        (i, some preset, some (presence k identifier)) r
  | null {type : TypeId} {t : Registry} (hnone : (r.baseKind? i).bind emptyPreset? = none)
      (htype : outcome (Schema.resolve document none schema true hint) r = (.ok type, t)) :
      Finds document schema i identifier hint r false
        (type, some "None", some (identifier ++ " is not None")) t

/-- Where nothing else stands for a parameter that is not given, its type is made to admit null. -/
theorem presenceOf_null_eq {schema : Value} (h : (r.baseKind? i).bind emptyPreset? = none) :
    outcome (presenceOf document schema false i identifier hint) r = outcome (do
      let type ← Schema.resolve document none schema true hint
      return (type, some "None", some (identifier ++ " is not None"))) r := by
  rw [presenceOf, if_neg Bool.false_ne_true, outcome_bind_of_ok (outcome_get r)]
  dsimp only
  rw [h]
  cases r.baseKind? i <;> rfl

theorem presenceOf_ok_iff {schema : Value} {required : Bool}
    {found : TypeId × Option String × Option String} :
    outcome (presenceOf document schema required i identifier hint) r = (.ok found, s) ↔
      Finds document schema i identifier hint r required found s := by
  cases required with
  | true =>
    rw [presenceOf, if_pos rfl]
    constructor
    · rintro ⟨⟩
      exact .required
    · rintro ⟨⟩
      rfl
  | false =>
    cases hstands : (r.baseKind? i).bind emptyPreset? with
    | some preset =>
      obtain ⟨k, hkind, hpreset⟩ := Option.bind_eq_some_iff.mp hstands
      rw [presenceOf, if_neg Bool.false_ne_true, outcome_bind_of_ok (outcome_get r)]
      simp only [hkind, Option.bind_some, hpreset]
      constructor
      · rintro ⟨⟩
        exact .preset hkind hpreset
      · rintro (_ | ⟨hkind', hpreset'⟩ | ⟨hnone, -⟩)
        · obtain rfl := Option.some.inj (hkind.symm.trans hkind')
          obtain rfl := Option.some.inj (hpreset.symm.trans hpreset')
          rfl
        · rw [hstands] at hnone
          cases hnone
    | none =>
      rw [presenceOf_null_eq hstands, bind_ok_iff]
      constructor
      · rintro ⟨type, t, htype, ⟨⟩⟩
        exact .null hstands htype
      · rintro (_ | ⟨hkind, hpreset⟩ | ⟨-, htype⟩)
        · simp [hkind, hpreset] at hstands
        · exact ⟨_, _, htype, rfl⟩

/-- What is found of a parameter whose type became a union by listing it: the type that the
parameter has without the list is of a proper kind, and the text is the same where the presets
are. -/
structure UnionFound (required : Bool) (k : Kind) (found : TypeId × Option String × Option String)
    (r : Registry) (found' : TypeId × Option String × Option String) (s : Registry) : Prop where
  kind : r.baseKind? found.1 = some k
  proper : k.isProper
  union : s.baseKind? found'.1 = some .union
  bound : found'.1 < s.entries.size
  presets : found'.2 = found.2 ↔ required ∨ emptyPreset? k = none
  texts : found'.2 = found.2 → ∀ modelsModule view,
    s.typeText modelsModule view found'.1 = r.typeText modelsModule view found.1

/-- What is found of a parameter with the type listed, against what is found without. -/
inductive FoundAs (ms : Members) (required : Bool) (found : TypeId × Option String × Option String)
    (r : Registry) (found' : TypeId × Option String × Option String) (s : Registry) : Prop
  | same (h : ¬ TypeDecides ms) (htypes : SameTypes r s) (hfound : found' = found) :
      FoundAs ms required found r found' s
  | union {k : Kind} (h : TypeDecides ms) (hs : s.Made)
      (hfound : UnionFound required k found r found' s) : FoundAs ms required found r found' s

theorem emptyPreset?_ne_none {preset : String} (h : emptyPreset? k = some preset) :
    preset ≠ "None" := by
  unfold emptyPreset? at h
  split at h
  all_goals
    cases h
    try decide

/-- A type without an empty preset admits null for a parameter that may be left out. -/
theorem presenceOf_null {v : Value} {b : Body} (hr : r.Made) (hrecalls : r.Recalls v i)
    (hi : i < r.entries.size) (hbody : r.body? i = some b) (hend : b.isEnd)
    (hpreset : emptyPreset? b.kind = none) (document : Value) (identifier hint : String) :
    ∃ i' s, outcome (presenceOf document v false i identifier hint) r =
        (.ok (i', some "None", some (identifier ++ " is not None")), s) ∧
      s.Made ∧ i' < s.entries.size ∧ s.baseKind? i' = some b.kind ∧
      ∀ modelsModule view, s.typeText modelsModule view i' =
        (do return (← r.typeText modelsModule view i) ++ " | None") := by
  obtain ⟨i', s, hi', hs, hkept, hoptional⟩ := wrap_made hr hi fun item hitem => by
    obtain rfl := Option.some.inj (hbody.symm.trans hitem)
    cases hend
  have hresolved : outcome (Schema.resolve document none v true hint) r = (.ok i', s) := by
    rw [hrecalls.resolve, hi']
  have hbody' : s.body? i = some b := by rw [hkept.body? hi, hbody]
  have hnone : (r.baseKind? i).bind emptyPreset? = none := by
    rw [Registry.baseKind?_eq hbody hend]
    exact hpreset
  exact ⟨i', s, presenceOf_ok_iff.mpr (.null hnone hresolved), hs, hoptional.lt,
    Registry.baseKind?_optional hbody' hend hoptional.body?,
    typeText_wrapped hs hkept hi hoptional⟩

private theorem presenceOf_mirrors (h : Paired ms t i r j s) (document : Value) (required : Bool)
    (identifier hint : String) :
    Mirrors (FoundAs ms required) r s
      (presenceOf document (withType ms (.text t)) required i identifier hint)
      (presenceOf document (withType ms (listed t)) required j identifier hint) := by
  obtain ⟨htypes, hr, hs, hrecalls, hrecalls'⟩ := h
  have htexts := htypes.typeText hs
  cases htypes with
  | same h htypes =>
    intro found u hfound
    cases presenceOf_ok_iff.mp hfound with
    | required => exact ⟨_, s, presenceOf_ok_iff.mpr .required, .same h htypes rfl⟩
    | preset hkind hpreset =>
      have hkind' := (htypes.baseKind? i).trans hkind
      exact ⟨_, s, presenceOf_ok_iff.mpr (.preset hkind' hpreset), .same h htypes rfl⟩
    | null hnone hi' =>
      rw [hrecalls.resolve] at hi'
      obtain ⟨u', hu', hsame⟩ := htypes.wrap true hi'
      rw [← hrecalls'.resolve document true hint] at hu'
      rw [← htypes.baseKind?] at hnone
      exact ⟨_, u', presenceOf_ok_iff.mpr (.null hnone hu'), .same h hsame rfl⟩
  | @union _ b h hkept hi hbody hproper hunion =>
    have hend := Body.isEnd_of_isProper hproper
    have hkind := Registry.baseKind?_eq hbody hend
    cases required with
    | true =>
      exact .of_ok (presenceOf_ok_iff.mpr .required) (presenceOf_ok_iff.mpr .required)
        (.union h hs ⟨hkind, hproper, Registry.baseKind?_eq hunion.body? rfl, hunion.lt, by simp,
          fun _ => htexts⟩)
    | false =>
      obtain ⟨j', v, hj', hv, hlt, hkind', htexts'⟩ := presenceOf_null hs hrecalls' hunion.lt
        hunion.body? rfl rfl document identifier hint
      cases hpreset : emptyPreset? b.kind with
      | some preset =>
        have hne : "None" ≠ preset := Ne.symm (emptyPreset?_ne_none hpreset)
        exact .of_ok (presenceOf_ok_iff.mpr (.preset hkind hpreset)) hj'
          (.union h hv ⟨hkind, hproper, hkind', hlt, by simp [hpreset, hne],
            fun hsame => by simp [hne] at hsame⟩)
      | none =>
        obtain ⟨i', w, hi', -, -, hkind'', htexts''⟩ := presenceOf_null hr hrecalls hi hbody hend
          hpreset document identifier hint
        refine .of_ok hi' hj' (.union h hv ⟨hkind'', hproper, hkind', hlt, by simp [hpreset],
          fun _ modelsModule view => ?_⟩)
        rw [htexts', htexts, htexts'']

/-! ## Classification -/

def withSchema (ps : Members) (schema : Value) : Value :=
  .mapping (Members.set ps (.text "schema") schema)

theorem get?_withSchema {key : String} (hkey : key ≠ "schema") (v w : Value) :
    (withSchema ps v).get? key = (withSchema ps w).get? key := by
  rw [withSchema, withSchema, Value.get?_mapping, Value.get?_mapping, Members.get?_set,
    Members.get?_set, if_neg hkey, if_neg hkey]

theorem get_withSchema {key : String} (hkey : key ≠ "schema") (v w : Value) :
    (withSchema ps v).get key = (withSchema ps w).get key := by
  rw [Value.get, Value.get, get?_withSchema hkey v w]

theorem parameterSchema_withSchema (ns : Members) :
    parameterSchema (withSchema ps (.mapping ns)) = .ok (.mapping ns) := by
  rw [parameterSchema, withSchema, Value.get?_mapping, Members.get?_set, if_pos rfl]
  exact congrArg Except.ok (Value.orEmpty_mapping ns)

structure Presents (settings : Settings) (r : Registry)
    (found : TypeId × Option String × Option String) (p : Parameter) : Prop where
  type : p.type = found.1
  presets : (p.preset, p.condition) = found.2
  text : r.typeText settings.modelsModule .accepted found.1 = .ok p.typeText
  serialization : p.serialization = serializationOf r found.1
  expression : p.expression =
    serialized r found.1 p.identifier settings.arraySeparator p.serialization

private theorem checkSending_mirrors (h : Paired ms t i r j s) (name : String) (place : Place)
    (v w : Value) :
    Mirrors (fun sent u sent' v => sent' = sent ∧ Paired ms t i u j v) r s
      (checkSending (withSchema ps v) name place) (checkSending (withSchema ps w) name place) := by
  have hlog : ∀ (message : String), Mirrors (fun sent u sent' v => sent' = sent ∧ Paired ms t i u j v)
      r s (logRecord .warning .parameters message >>= fun _ => Pure.pure false)
      (logRecord .warning .parameters message >>= fun _ => Pure.pure false) := by
    exact fun message => .of_ok rfl rfl ⟨rfl, h.logged _⟩
  cases place with
  | query =>
    refine .look_bind (get?_withSchema (by decide) w v) fun style _ => ?_
    dsimp only
    split
    · refine .look_bind (get_withSchema (by decide) w v) fun allowed _ => ?_
      split
      · exact .throw_bind _ _ _
      · exact .pure ⟨rfl, h⟩
    · exact hlog _
  | cookie => exact hlog _
  | path => exact .pure ⟨rfl, h⟩
  | header => exact .pure ⟨rfl, h⟩

private theorem classify_mirrors (ht : t ≠ "null") (document : Value)
    (hlookup : lookupParameter shared parameter =
      .ok (withSchema ps (withType ms (.text t)), component))
    (hlookup' : lookupParameter shared' parameter' =
      .ok (withSchema ps (withType ms (listed t)), component)) :
    Mirrors (fun p u q v => ∃ found found', FoundAs ms p.required found u found' v ∧
        Presents settings u found p ∧ Presents settings v found' q ∧ q.identifier = p.identifier)
      {} {} (classify document shared settings parameter)
      (classify document shared' settings parameter') := by
  rw [classify, classify]
  refine .lift_bind fun found hfound => ⟨_, hlookup', ?_⟩
  obtain rfl := Except.ok.inj (hlookup.symm.trans hfound)
  dsimp only
  refine .look_bind (get?_withSchema (by decide) _ _) fun rawName _ =>
    .look_bind (get?_withSchema (by decide) _ _) fun rawPlace _ => ?_
  split
  · rw [pure_bind, pure_bind]
    refine .look_bind rfl fun name _ => .look_bind rfl fun reserved _ =>
      .look_bind (get_withSchema (by decide) _ _) fun required _ => .lift_bind fun schema hschema => ?_
    refine ⟨_, parameterSchema_withSchema _, ?_⟩
    obtain rfl := Except.ok.inj ((parameterSchema_withSchema _).symm.trans hschema)
    refine .bind (resolve_mirrors ht document ms _) fun i u j v hpaired => .get_bind ?_
    refine .look_bind (schemaDescription_listed hpaired) fun described _ => ?_
    refine .bind (checkSending_mirrors hpaired _ _ _ _) ?_
    rintro sent u' _ v' ⟨rfl, hpaired'⟩
    refine .bind (presenceOf_mirrors hpaired' document _ _ _) fun found u'' found' v'' hfound => ?_
    refine .get_bind (.lift_bind fun text htext => ?_)
    obtain ⟨text', htext'⟩ : ∃ text', v''.typeText settings.modelsModule .accepted found'.1 =
        .ok text' := by
      cases hfound with
      | same _ htypes heq => exact ⟨text, by rw [htypes.typeText, heq, htext]⟩
      | union _ hv hunion => exact hv.wellFormed.typeTextWith_ok _ _ hunion.bound
    refine ⟨text', htext', .look_bind (get_withSchema (by decide) _ _) fun description _ => ?_⟩
    exact .pure ⟨found, found', hfound, ⟨rfl, rfl, htext, rfl, rfl⟩,
      ⟨rfl, rfl, htext', rfl, rfl⟩, rfl⟩
  · exact .throw_bind _ _ _

/-- Kinds whose values are written as any value is. -/
def isDisplayed : Kind → Bool
  | .primitive .date | .primitive .dateTime | .primitive .string | .primitive .boolean
  | .array => false
  | _ => true

theorem isDisplayed_iff (h : r.baseKind? i = some k) (identifier : String) (separator : Value) :
    isDisplayed k ↔ serializationOf r i = .display ∧
      serialized r i identifier separator (serializationOf r i) = "str(" ++ identifier ++ ")" := by
  have hlower : "str(" ++ identifier ++ ").lower()" ≠ "str(" ++ identifier ++ ")" := by
    intro heq
    have hlength : ").lower()".length = ")".length := by
      simpa using congrArg String.length heq
    exact absurd hlength (by decide)
  cases k with
  | primitive p => cases p <;> simp [isDisplayed, serializationOf, serialized, h, hlower]
  | _ => simp [isDisplayed, serializationOf, serialized, h]

/-- Whether two parameters are the same in the generated code. -/
structure WrittenAlike (p q : Parameter) : Prop where
  typeText : q.typeText = p.typeText
  preset : q.preset = p.preset
  condition : q.condition = p.condition
  serialization : q.serialization = p.serialization
  expression : q.expression = p.expression

theorem writtenAlike_iff {found found' : TypeId × Option String × Option String}
    (h : FoundAs ms p.required found r found' s) (hp : Presents settings r found p)
    (hq : Presents settings s found' q) (hidentifier : q.identifier = p.identifier) :
    WrittenAlike p q ↔ (TypeDecides ms → ∃ k, r.baseKind? p.type = some k ∧
      (p.required ∨ emptyPreset? k = none) ∧ isDisplayed k) := by
  cases h with
  | same h htypes hfound =>
    subst hfound
    have hpresets := Prod.mk.inj (hq.presets.trans hp.presets.symm)
    have htext := hq.text.symm.trans ((htypes.typeText _ _ _).trans hp.text)
    have hserialization : q.serialization = p.serialization := by
      rw [hq.serialization, hp.serialization, serializationOf, serializationOf, htypes.baseKind?]
    refine ⟨fun _ hdecides => absurd hdecides h, fun _ => ⟨Except.ok.inj htext, hpresets.1,
      hpresets.2, hserialization, ?_⟩⟩
    have htextual : isTextual s = isTextual r := by
      funext type
      rw [isTextual, isTextual, htypes.baseKind?]
    rw [hq.expression, hp.expression, hserialization, hidentifier]
    unfold serialized
    rw [htypes.item?, htypes.baseKind?, htextual]
  | @union k h hs hfound =>
    have hdisplayed := isDisplayed_iff hfound.kind p.identifier settings.arraySeparator
    obtain ⟨hserialization, hexpression⟩ :=
      (isDisplayed_iff hfound.union q.identifier settings.arraySeparator).mp rfl
    rw [← hq.serialization] at hserialization hexpression
    rw [← hq.expression, hidentifier] at hexpression
    rw [← hp.serialization, ← hp.expression] at hdisplayed
    constructor
    · rintro ⟨-, hpreset, hcondition, hsame, hsame'⟩ -
      refine ⟨k, hp.type ▸ hfound.kind, hfound.presets.mp ?_, hdisplayed.mpr ?_⟩
      · rw [← hq.presets, ← hp.presets, hpreset, hcondition]
      · exact ⟨hsame ▸ hserialization, hsame' ▸ hexpression⟩
    · intro hk
      obtain ⟨k', hk', hpresets, hdisplayed'⟩ := hk h
      obtain rfl := Option.some.inj (hk'.symm.trans (hp.type ▸ hfound.kind))
      have hsame := hfound.presets.mpr hpresets
      have htext := hfound.texts hsame settings.modelsModule .accepted
      obtain ⟨hp', hp''⟩ := hdisplayed.mp hdisplayed'
      rw [← hq.presets, ← hp.presets] at hsame
      obtain ⟨hpreset, hcondition⟩ := Prod.mk.inj hsame
      exact ⟨Except.ok.inj (hq.text.symm.trans (htext.trans hp.text)), hpreset, hcondition,
        hserialization.trans hp'.symm, hexpression.trans hp''.symm⟩

/-- A schema that lists its one type is written as the schema with that type, on fresh registries.
It has the same kind, and the same kind of items, unless the type decides: then it is the union of
that type alone. A parameter with the list comes out as one with the type, unless the type decides
and a value of it is written in a way of its own, or left out when it is empty. -/
theorem one_type_listed (ht : t ≠ "null") (document : Value) (ms : Members) :
    (∀ {hint : String} {i : TypeId} {r : Registry},
      outcome (Schema.resolve document none (withType ms (.text t)) false hint) {} = (.ok i, r) →
      ∃ j s, outcome (Schema.resolve document none (withType ms (listed t)) false hint) {} =
          (.ok j, s) ∧
        (∀ modelsModule view, s.typeText modelsModule view j = r.typeText modelsModule view i) ∧
        (s.baseKind? j = r.baseKind? i ∧
            (s.item? j).bind s.baseKind? = (r.item? i).bind r.baseKind? ↔ ¬ TypeDecides ms) ∧
        (TypeDecides ms → s.body? j = some (.union [i]))) ∧
    ∀ {shared shared' ps : Members} {settings : Settings} {parameter parameter' : Value}
      {component : String} {p : Parameter} {r : Registry},
      lookupParameter shared parameter =
        .ok (withSchema ps (withType ms (.text t)), component) →
      lookupParameter shared' parameter' =
        .ok (withSchema ps (withType ms (listed t)), component) →
      outcome (classify document shared settings parameter) {} = (.ok p, r) →
      ∃ q s, outcome (classify document shared' settings parameter') {} = (.ok q, s) ∧
        (WrittenAlike p q ↔ (TypeDecides ms → ∃ k, r.baseKind? p.type = some k ∧
          (p.required ∨ emptyPreset? k = none) ∧ isDisplayed k)) := by
  constructor
  · intro hint i r hone
    obtain ⟨j, s, hs, hpaired⟩ := resolve_mirrors ht document ms hint i r hone
    refine ⟨j, s, hs, hpaired.types.typeText hpaired.madeListed, ?_⟩
    cases hpaired.types with
    | same h htypes =>
      have hkinds : s.baseKind? = r.baseKind? := funext htypes.baseKind?
      exact ⟨⟨fun _ => h, fun _ => ⟨htypes.baseKind? i, by rw [htypes.item?, hkinds]⟩⟩,
        fun hdecides => absurd hdecides h⟩
    | union h hkept hi hbody hproper hunion =>
      refine ⟨⟨fun ⟨hkind, _⟩ => ?_, fun hnot => absurd h hnot⟩, fun _ => hunion.body?⟩
      rw [Registry.baseKind?_eq hunion.body? rfl,
        Registry.baseKind?_eq hbody (Body.isEnd_of_isProper hproper)] at hkind
      rw [← Option.some.inj hkind] at hproper
      cases hproper
  · intro shared shared' ps settings parameter parameter' component p r hlookup hlookup' hp
    obtain ⟨q, s, hq, found, found', hfound, hpresents, hpresents', hidentifier⟩ :=
      classify_mirrors ht document hlookup hlookup' p r hp
    exact ⟨q, s, hq, writtenAlike_iff hfound hpresents hpresents' hidentifier⟩

def queryDeclaration : Members := [(.text "name", .text "q"), (.text "in", .text "query")]

def presented (type : Value) : Registry :=
  (outcome (do
    let i ← Schema.resolve .empty none (withType [] type) false "q"
    presenceOf .empty (withType [] type) false i "q" "q") {}).2

/-- A query parameter is classified once its type is written. -/
theorem classify_queryDeclaration {type : Value}
    (h : outcome (classify .empty [] .default (withSchema queryDeclaration (withType [] type))) {} =
      outcome (do
        return { p with typeText := ← (presented type).typeText (.text "models") .accepted p.type })
        (presented type))
    (htext : (presented type).typeText (.text "models") .accepted p.type = .ok p.typeText) :
    outcome (classify .empty [] .default (withSchema queryDeclaration (withType [] type))) {} =
      (.ok p, presented type) := by
  rw [h, htext]
  rfl

def numberParameter : Parameter where
  name := "q"
  identifier := "q"
  place := .query
  type := 1
  typeText := "float | None"
  required := false
  preset := some "None"
  condition := some "q is not None"
  serialization := .display
  expression := "str(q)"
  inQueryTable := true

theorem one_type_listed_number :
    ∃ i r j s, outcome (Schema.resolve .empty none (withType [] (.text "number")) false "") {} =
        (.ok i, r) ∧
      outcome (Schema.resolve .empty none (withType [] (listed "number")) false "") {} =
        (.ok j, s) ∧
      s.typeText (.text "models") .owned j = r.typeText (.text "models") .owned i ∧
      s.body? j = some (.union [i]) ∧
    ∃ q s, outcome (classify .empty [] .default
        (withSchema queryDeclaration (withType [] (.text "number")))) {} =
          (.ok numberParameter, presented (.text "number")) ∧
      outcome (classify .empty [] .default
        (withSchema queryDeclaration (withType [] (listed "number")))) {} = (.ok q, s) ∧
      WrittenAlike numberParameter q := by
  obtain ⟨htypes, hparameters⟩ :=
    one_type_listed (show "number" ≠ "null" by decide) .empty []
  obtain ⟨j, s, hs, htext, -, hunion⟩ := @htypes "" _ _ rfl
  have hnumber : outcome (classify .empty [] .default
      (withSchema queryDeclaration (withType [] (.text "number")))) {} =
        (.ok numberParameter, presented (.text "number")) :=
    classify_queryDeclaration rfl (by decide +kernel)
  obtain ⟨q, s', hq, halike⟩ := @hparameters [] [] queryDeclaration .default
    (withSchema queryDeclaration (withType [] (.text "number")))
    (withSchema queryDeclaration (withType [] (listed "number"))) _ _ _ rfl rfl hnumber
  have hkind : (presented (.text "number")).baseKind? numberParameter.type =
      some (.primitive .number) := rfl
  exact ⟨_, _, j, s, rfl, hs, htext _ _, hunion (by decide), q, s', hnumber, hq,
    halike.mpr fun _ => ⟨_, hkind, .inr rfl, rfl⟩⟩

def textParameter : Parameter where
  name := "q"
  identifier := "q"
  place := .query
  type := 0
  typeText := "str"
  required := false
  preset := some "\"\""
  condition := some "q"
  serialization := .verbatim
  expression := "q"
  inQueryTable := true

def listedParameter : Parameter where
  name := "q"
  identifier := "q"
  place := .query
  type := 2
  typeText := "str | None"
  required := false
  preset := some "None"
  condition := some "q is not None"
  serialization := .display
  expression := "str(q)"
  inQueryTable := true

/-- A list of one type may have another kind than the type, and a parameter with it another
classification. -/
theorem one_type_listed_differs :
    (∃ i r j s, outcome (Schema.resolve .empty none (withType [] (.text "string")) false "") {} =
        (.ok i, r) ∧
      outcome (Schema.resolve .empty none (withType [] (listed "string")) false "") {} =
        (.ok j, s) ∧
      r.baseKind? i = some (.primitive .string) ∧ s.baseKind? j = some .union) ∧
    outcome (classify .empty [] .default
      (withSchema queryDeclaration (withType [] (.text "string")))) {} =
        (.ok textParameter, presented (.text "string")) ∧
    outcome (classify .empty [] .default
      (withSchema queryDeclaration (withType [] (listed "string")))) {} =
        (.ok listedParameter, presented (listed "string")) ∧
    ¬ WrittenAlike textParameter listedParameter := by
  refine ⟨⟨_, _, _, _, rfl, rfl, rfl, rfl⟩, classify_queryDeclaration rfl (by decide +kernel),
    classify_queryDeclaration rfl (by decide +kernel), fun halike => ?_⟩
  exact absurd halike.preset (by decide)

end Operation

end OpenApiClient

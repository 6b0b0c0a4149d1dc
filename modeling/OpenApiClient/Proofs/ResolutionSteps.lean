import OpenApiClient.Proofs.Looks
import OpenApiClient.Proofs.RegistryRuns

/-! # What a resolution can do

The lemmas list the ways in which a description, a reference and a schema without a name can end,
with the registry that each of them leaves. Invariants of the registry are proved from these lists
and not from the definitions. -/
namespace OpenApiClient.Schema

open RegistryM

variable {document schema : Value} {hint key : String} {resolve : Resolver} {r t : Registry}

def Registry.withNames (r : Registry) (names : List String) : Registry := { r with names := names }

/-- The registry with a reference opened: its name is taken and its type has a place, but is not
described yet. -/
def Registry.opened (r : Registry) (reference name : String) : Registry :=
  { (r.withNames (name :: r.names)).push { body := .primitive .any, name := some name } with
    refs := (reference, r.entries.size) :: r.refs }

/-- The registry with a name taken and a place for its type, which is not described yet. -/
def Registry.named (r : Registry) (name : String) : Registry :=
  (r.withNames (name :: r.names)).push { body := .primitive .any, name := some name }

def Registry.settled (r : Registry) (key : String) (e : Entry) : Registry :=
  { r.push e with anonymous := (key, r.entries.size) :: r.anonymous }

def Registry.nameFor (r : Registry) (text : String) : String :=
  freeName r.names (Naming.className text) ""

def referenceRecord (reference name : String) : LogRecord :=
  ⟨.debug, .types, "registered " ++ reference ++ " as " ++ name⟩

theorem outcome_append (e : Entry) (r : Registry) :
    outcome (append e) r = (.ok r.entries.size, r.push e) := rfl

theorem outcome_claim (name : String) (r : Registry) :
    outcome (claim name) r = (.ok (r.nameFor name), r.withNames (r.nameFor name :: r.names)) := rfl

theorem outcome_remember (key : String) (id : TypeId) (r : Registry) :
    outcome (remember key id) r =
      (.ok (), { r with anonymous := (key, id) :: r.anonymous }) := rfl

theorem describe_ok_iff {e : Entry} :
    outcome (describe document resolve schema hint) r = (.ok e, t) ↔
      ∃ description outer ids, schema.get "description" = .ok description ∧
        layer document schema hint = .ok outer ∧
        outcome (outer.parts.mapM (resolvePart resolve)) r = (.ok ids, t) ∧
        e = { body := outer.frame.fill ids, description := description.orBlank } := by
  rw [describe]
  constructor
  · intro h
    obtain ⟨d, hd, h⟩ := lift_bind_ok_iff.mp h
    obtain ⟨outer, houter, h⟩ := lift_bind_ok_iff.mp h
    obtain ⟨ids, s, hids, h⟩ := bind_ok_iff.mp h
    obtain ⟨rfl, rfl⟩ := pure_ok_iff.mp h
    exact ⟨d, outer, ids, hd, houter, hids, rfl⟩
  · rintro ⟨d, outer, ids, hd, houter, hids, rfl⟩
    refine lift_bind_ok_iff.mpr ⟨d, hd, lift_bind_ok_iff.mpr ⟨outer, houter, ?_⟩⟩
    exact bind_ok_iff.mpr ⟨ids, t, hids, pure_ok_iff.mpr ⟨rfl, rfl⟩⟩

/-- A description fails on its schema, with nothing registered, or at its parts. -/
theorem describe_error {fault : Fault}
    (h : outcome (describe document resolve schema hint) r = (.error fault, t)) :
    (t = r ∧ (schema.get "description" = .error fault ∨
      layer document schema hint = .error fault)) ∨
    ∃ outer, layer document schema hint = .ok outer ∧
      outcome (outer.parts.mapM (resolvePart resolve)) r = (.error fault, t) := by
  rw [describe] at h
  rcases lift_bind_error_iff.mp h with ⟨hd, ht⟩ | ⟨d, -, h⟩
  · exact .inl ⟨ht, .inl hd⟩
  rcases lift_bind_error_iff.mp h with ⟨houter, ht⟩ | ⟨outer, houter, h⟩
  · exact .inl ⟨ht, .inr houter⟩
  rcases bind_error_iff.mp h with hparts | ⟨ids, s, -, hpure⟩
  · exact .inr ⟨outer, houter, hparts⟩
  · cases hpure

theorem resolvePart_ok {part : Part} {id : TypeId}
    (h : outcome (resolvePart resolve part) r = (.ok id, t)) :
    outcome (resolve part.schema part.hint) r = (.ok id, t) ∧
      (part.described →
        ∃ description, part.schema.orEmpty.get "description" = .ok description) := by
  simp only [resolvePart, bind_ok_iff] at h
  obtain ⟨i, s, hi, h⟩ := h
  cases hd : part.described with
  | false =>
    rw [hd] at h
    obtain ⟨rfl, rfl⟩ := pure_ok_iff.mp h
    exact ⟨hi, by simp⟩
  | true =>
    rw [hd] at h
    obtain ⟨d, hd, h⟩ := lift_bind_ok_iff.mp h
    obtain ⟨rfl, rfl⟩ := pure_ok_iff.mp h
    exact ⟨hi, fun _ => ⟨d, hd⟩⟩

/-- A part fails as the schema that it is, or for want of a description. -/
theorem resolvePart_error {part : Part} {fault : Fault}
    (h : outcome (resolvePart resolve part) r = (.error fault, t)) :
    outcome (resolve part.schema part.hint) r = (.error fault, t) ∨
    ∃ id, outcome (resolve part.schema part.hint) r = (.ok id, t) ∧
      part.schema.orEmpty.get "description" = .error fault := by
  simp only [resolvePart, bind_error_iff] at h
  rcases h with h | ⟨i, s, hi, h⟩
  · exact .inl h
  · cases hd : part.described with
    | false => simp [hd] at h
    | true =>
      rw [hd] at h
      rcases lift_bind_error_iff.mp h with ⟨hd, rfl⟩ | ⟨d, -, hpure⟩
      · exact .inr ⟨i, hi, hd⟩
      · cases hpure

/-- How a type is registered under a name: its place is taken first, and filled in at the end. -/
theorem outcome_register (name : String) (note : TypeId → Registry → Registry)
    (body : RegistryM Entry) (r : Registry) :
    outcome (register name (fun id => modify (note id)) body) r =
      match outcome body
        (note r.entries.size (r.push { body := .primitive .any, name := some name })) with
      | (.ok e, t) => (.ok r.entries.size, t.replace r.entries.size { e with name := some name })
      | (.error fault, t) => (.error fault, t) := by
  simp only [register, outcome_bind, outcome_append, outcome_modify]
  cases outcome body _ with
  | mk x s => cases x <;> rfl

/-- How the type of a reference is registered: the reference is remembered before its target is
described. -/
theorem outcome_register_opened (text name : String) (body : RegistryM Entry) (r : Registry) :
    outcome (register name (rememberRef text) body) (r.withNames (name :: r.names)) =
      match outcome body (r.opened text name) with
      | (.ok e, t) => (.ok r.entries.size, t.replace r.entries.size { e with name := some name })
      | (.error fault, t) => (.error fault, t) :=
  outcome_register name (fun id r => { r with refs := (text, id) :: r.refs }) body _

/-- A reference is a text, and gives the type remembered for it, or that of its target. -/
theorem resolveRef_ok {reference : Value} {id : TypeId}
    (h : outcome (resolveRef document resolve reference) r = (.ok id, t)) :
    ∃ text, reference = .text text ∧
      ((r.refs.lookup text = some id ∧ t = r) ∨
        ∃ target e s, r.refs.lookup text = none ∧ lookup document text = .ok target ∧
          outcome (describe document resolve target (r.nameFor (Text.lastField '/' text)))
            (r.opened text (r.nameFor (Text.lastField '/' text))) = (.ok e, s) ∧
          id = r.entries.size ∧
          t = (s.replace id { e with name := some (r.nameFor (Text.lastField '/' text)) }).logged
            (referenceRecord text (r.nameFor (Text.lastField '/' text)))) := by
  rw [resolveRef] at h
  obtain ⟨text, htext, h⟩ := lift_bind_ok_iff.mp h
  rw [outcome_bind_of_ok (outcome_get r)] at h
  refine ⟨text, asText_ok_iff.mp htext, ?_⟩
  cases hknown : r.refs.lookup text with
  | some known =>
    rw [hknown] at h
    obtain ⟨rfl, rfl⟩ := pure_ok_iff.mp h
    exact .inl ⟨rfl, rfl⟩
  | none =>
    rw [hknown] at h
    obtain ⟨target, htarget, h⟩ := lift_bind_ok_iff.mp h
    rw [outcome_bind_of_ok (outcome_claim _ r)] at h
    obtain ⟨i, s, hregister, h⟩ := bind_ok_iff.mp h
    rw [outcome_register_opened] at hregister
    split at hregister
    · rename_i e s' hdescribe
      obtain ⟨hi, rfl⟩ := Prod.mk.inj hregister
      obtain rfl := Except.ok.inj hi
      obtain ⟨hid, rfl⟩ := Prod.mk.inj h
      obtain rfl := Except.ok.inj hid
      exact .inr ⟨target, e, s', rfl, htarget, hdescribe, rfl, rfl⟩
    · simp at hregister

/-- A reference fails as a pointer, with nothing registered, or when its target is described. -/
theorem resolveRef_error {reference : Value} {fault : Fault}
    (h : outcome (resolveRef document resolve reference) r = (.error fault, t)) :
    (t = r ∧ (reference.asText = .error fault ∨
      ∃ text, reference = .text text ∧ lookup document text = .error fault)) ∨
    ∃ text target, reference = .text text ∧ r.refs.lookup text = none ∧
      lookup document text = .ok target ∧
      outcome (describe document resolve target (r.nameFor (Text.lastField '/' text)))
        (r.opened text (r.nameFor (Text.lastField '/' text))) = (.error fault, t) := by
  rw [resolveRef] at h
  rcases lift_bind_error_iff.mp h with ⟨htext, ht⟩ | ⟨text, htext, h⟩
  · exact .inl ⟨ht, .inl htext⟩
  rw [outcome_bind_of_ok (outcome_get r)] at h
  have hreference : reference = .text text := asText_ok_iff.mp htext
  cases hknown : r.refs.lookup text with
  | some known => simp [hknown] at h
  | none =>
    rw [hknown] at h
    rcases lift_bind_error_iff.mp h with ⟨htarget, ht⟩ | ⟨target, htarget, h⟩
    · exact .inl ⟨ht, .inr ⟨text, hreference, htarget⟩⟩
    rw [outcome_bind_of_ok (outcome_claim _ r)] at h
    rcases bind_error_iff.mp h with hregister | ⟨i, s, -, hlog⟩
    · rw [outcome_register_opened] at hregister
      split at hregister
      · simp at hregister
      · rename_i f s hdescribe
        obtain ⟨⟨⟩, rfl⟩ := Prod.mk.inj hregister
        exact .inr ⟨text, target, hreference, hknown, htarget, hdescribe⟩
    · cases hlog

def settle (schema : Value) (hint key : String) (entry : Entry) : RegistryM TypeId := do
  let entry ←
    if entry.body.needsName then
      pure { entry with name := some (← claim (← modelName schema hint entry.body)) }
    else pure entry
  let id ← append entry
  remember key id
  return id

/-- How a described shape gets its type: under a model name when it needs one. -/
inductive Settles (schema : Value) (hint key : String) (e : Entry) (s : Registry) :
    Registry → Prop
  | unnamed (h : e.body.needsName = false) : Settles schema hint key e s (s.settled key e)
  | named (text : String) (h : e.body.needsName = true)
      (htext : modelName schema hint e.body = .ok text) :
      Settles schema hint key e s
        ((s.withNames (s.nameFor text :: s.names)).settled key
          { e with name := some (s.nameFor text) })

section Settling

variable {s : Registry} {e : Entry}

theorem outcome_settle_unnamed (h : e.body.needsName = false) :
    outcome (settle schema hint key e) s = (.ok s.entries.size, s.settled key e) := by
  rw [settle, h]
  rfl

theorem outcome_settle_named {text : String} (h : e.body.needsName = true)
    (htext : modelName schema hint e.body = .ok text) :
    outcome (settle schema hint key e) s = (.ok s.entries.size,
      (s.withNames (s.nameFor text :: s.names)).settled key
        { e with name := some (s.nameFor text) }) := by
  rw [settle, h, htext]
  rfl

theorem outcome_settle_nameless {fault : Fault} (h : e.body.needsName = true)
    (hfault : modelName schema hint e.body = .error fault) :
    outcome (settle schema hint key e) s = (.error fault, s) := by
  rw [settle, h, hfault]
  rfl

theorem settle_ok_iff {id : TypeId} :
    outcome (settle schema hint key e) s = (.ok id, t) ↔
      id = s.entries.size ∧ Settles schema hint key e s t := by
  constructor
  · intro h
    cases hneeds : e.body.needsName with
    | false =>
      obtain ⟨hid, rfl⟩ := Prod.mk.inj ((outcome_settle_unnamed hneeds).symm.trans h)
      exact ⟨(Except.ok.inj hid).symm, .unnamed hneeds⟩
    | true =>
      cases htext : modelName schema hint e.body with
      | error fault => simp [outcome_settle_nameless hneeds htext] at h
      | ok text =>
        obtain ⟨hid, rfl⟩ := Prod.mk.inj ((outcome_settle_named hneeds htext).symm.trans h)
        exact ⟨(Except.ok.inj hid).symm, .named text hneeds htext⟩
  · rintro ⟨rfl, hneeds | ⟨text, hneeds, htext⟩⟩
    · exact outcome_settle_unnamed hneeds
    · exact outcome_settle_named hneeds htext

private theorem settle_error {fault : Fault}
    (h : outcome (settle schema hint key e) s = (.error fault, t)) :
    t = s ∧ modelName schema hint e.body = .error fault := by
  cases hneeds : e.body.needsName with
  | false => simp [outcome_settle_unnamed hneeds] at h
  | true =>
    cases htext : modelName schema hint e.body with
    | error other =>
      obtain ⟨⟨⟩, rfl⟩ := Prod.mk.inj ((outcome_settle_nameless hneeds htext).symm.trans h)
      exact ⟨rfl, rfl⟩
    | ok text => simp [outcome_settle_named hneeds htext] at h

end Settling

variable {fuel : Nat} {active : List (Value × Nat)}

theorem resolveWith_succ : resolveWith document (fuel + 1) active schema hint = (do
    let schema := schema.orEmpty
    if ← isReference schema then
      resolveRef document (resolveWith document fuel []) (← schema.require "$ref")
    else
      let key ← structuralKey schema
      let r ← get
      match r.anonymous.lookup key with
      | some id => return id
      | none =>
        if active.contains (schema, r.entries.size) then throw .endless
        settle schema hint key (← describe document
          (resolveWith document fuel ((schema, r.entries.size) :: active)) schema hint)) := rfl

/-- A schema that is resolved is a reference, or of a shape that is remembered, or is described and
settled. -/
theorem resolveWith_ok {id : TypeId}
    (h : outcome (resolveWith document (fuel + 1) active schema hint) r = (.ok id, t)) :
    (∃ reference, isReference schema.orEmpty = .ok true ∧
      schema.orEmpty.require "$ref" = .ok reference ∧
      outcome (resolveRef document (resolveWith document fuel []) reference) r = (.ok id, t)) ∨
    (isReference schema.orEmpty = .ok false ∧ ∃ key, structuralKey schema.orEmpty = .ok key ∧
      ((r.anonymous.lookup key = some id ∧ t = r) ∨
        ∃ e s, r.anonymous.lookup key = none ∧ (schema.orEmpty, r.entries.size) ∉ active ∧
          outcome (describe document (resolveWith document fuel
            ((schema.orEmpty, r.entries.size) :: active))
            schema.orEmpty hint) r = (.ok e, s) ∧
          id = s.entries.size ∧ Settles schema.orEmpty hint key e s t)) := by
  rw [resolveWith_succ] at h
  obtain ⟨isRef, hisRef, h⟩ := lift_bind_ok_iff.mp h
  cases isRef with
  | true =>
    obtain ⟨reference, hreference, h⟩ := lift_bind_ok_iff.mp h
    exact .inl ⟨reference, hisRef, hreference, h⟩
  | false =>
    obtain ⟨key, hkey, h⟩ := lift_bind_ok_iff.mp h
    rw [outcome_bind_of_ok (outcome_get r)] at h
    refine .inr ⟨hisRef, key, hkey, ?_⟩
    cases hknown : r.anonymous.lookup key with
    | some known =>
      rw [hknown] at h
      obtain ⟨rfl, rfl⟩ := pure_ok_iff.mp h
      exact .inl ⟨rfl, rfl⟩
    | none =>
      rw [hknown] at h
      by_cases hactive : (schema.orEmpty, r.entries.size) ∈ active
      · simp [hactive] at h
      · simp only [List.contains_eq_mem, hactive, decide_false, Bool.false_eq_true, if_false] at h
        obtain ⟨e, s, hdescribe, h⟩ := bind_ok_iff.mp h
        obtain ⟨hid, hsettles⟩ := settle_ok_iff.mp h
        exact .inr ⟨e, s, rfl, hactive, hdescribe, hid, hsettles⟩

/-- A schema fails on a look at it, with nothing registered, or as a reference, or because it is
being described already, or when it is described or named. -/
theorem resolveWith_error {fault : Fault}
    (h : outcome (resolveWith document (fuel + 1) active schema hint) r = (.error fault, t)) :
    (t = r ∧ (isReference schema.orEmpty = .error fault ∨
      (isReference schema.orEmpty = .ok true ∧ schema.orEmpty.require "$ref" = .error fault) ∨
      (isReference schema.orEmpty = .ok false ∧ structuralKey schema.orEmpty = .error fault))) ∨
    (∃ reference, isReference schema.orEmpty = .ok true ∧
      schema.orEmpty.require "$ref" = .ok reference ∧
      outcome (resolveRef document (resolveWith document fuel []) reference) r =
        (.error fault, t)) ∨
    (isReference schema.orEmpty = .ok false ∧ ∃ key, structuralKey schema.orEmpty = .ok key ∧
      r.anonymous.lookup key = none ∧
      (((schema.orEmpty, r.entries.size) ∈ active ∧ fault = .endless ∧ t = r) ∨
        ((schema.orEmpty, r.entries.size) ∉ active ∧
          outcome (describe document (resolveWith document fuel
            ((schema.orEmpty, r.entries.size) :: active))
            schema.orEmpty hint) r = (.error fault, t)) ∨
        ∃ e, (schema.orEmpty, r.entries.size) ∉ active ∧
          outcome (describe document (resolveWith document fuel
            ((schema.orEmpty, r.entries.size) :: active))
            schema.orEmpty hint) r = (.ok e, t) ∧
          modelName schema.orEmpty hint e.body = .error fault)) := by
  rw [resolveWith_succ] at h
  rcases lift_bind_error_iff.mp h with ⟨hisRef, ht⟩ | ⟨isRef, hisRef, h⟩
  · exact .inl ⟨ht, .inl hisRef⟩
  cases isRef with
  | true =>
    rcases lift_bind_error_iff.mp h with ⟨hreference, ht⟩ | ⟨reference, hreference, h⟩
    · exact .inl ⟨ht, .inr (.inl ⟨hisRef, hreference⟩)⟩
    · exact .inr (.inl ⟨reference, hisRef, hreference, h⟩)
  | false =>
    rcases lift_bind_error_iff.mp h with ⟨hkey, ht⟩ | ⟨key, hkey, h⟩
    · exact .inl ⟨ht, .inr (.inr ⟨hisRef, hkey⟩)⟩
    rw [outcome_bind_of_ok (outcome_get r)] at h
    cases hknown : r.anonymous.lookup key with
    | some known => simp [hknown] at h
    | none =>
      rw [hknown] at h
      refine .inr (.inr ⟨hisRef, key, hkey, hknown, ?_⟩)
      by_cases hactive : (schema.orEmpty, r.entries.size) ∈ active
      · simp only [List.contains_eq_mem, hactive, decide_true, if_true, outcome_bind,
          outcome_throw, Prod.mk.injEq, Except.error.injEq] at h
        exact .inl ⟨hactive, h.1.symm, h.2.symm⟩
      · simp only [List.contains_eq_mem, hactive, decide_false, Bool.false_eq_true, if_false] at h
        rcases bind_error_iff.mp h with hdescribe | ⟨e, s, hdescribe, h⟩
        · exact .inr (.inl ⟨hactive, hdescribe⟩)
        · obtain ⟨rfl, hname⟩ := settle_error h
          exact .inr (.inr ⟨e, hactive, hdescribe, hname⟩)

/-- An optional type is the type itself when that admits null, or is remembered, or is new. -/
theorem outcome_optional (inner : TypeId) (r : Registry) :
    (∃ item, r.body? inner = some (.optional item) ∧ outcome (optional inner) r = (.ok inner, r)) ∨
    ((∀ item, r.body? inner ≠ some (.optional item)) ∧
      ((∃ id, r.anonymous.lookup (optionalKey inner) = some id ∧
          outcome (optional inner) r = (.ok id, r)) ∨
        (r.anonymous.lookup (optionalKey inner) = none ∧
          outcome (optional inner) r =
            (.ok r.entries.size, r.settled (optionalKey inner) { body := .optional inner })))) := by
  simp only [optional, outcome_bind, outcome_get]
  split
  · rename_i item hitem
    exact .inl ⟨item, hitem, rfl⟩
  · rename_i hbody
    refine .inr ⟨fun item hitem => hbody item hitem, ?_⟩
    split
    · rename_i id hknown
      exact .inl ⟨id, hknown, rfl⟩
    · rename_i hknown
      refine .inr ⟨hknown, ?_⟩
      simp only [outcome_bind, outcome_append, outcome_remember, outcome_pure]
      rfl

def wrap (nullable : Bool) (id : TypeId) : RegistryM TypeId :=
  if nullable then optional id else pure id

theorem resolveWithin_anonymous (room : Nat) (document : Value) {preferred : Option String}
    (h : preferred.getD "" = "") (schema : Value) (nullable : Bool) (hint : String) :
    resolveWithin room document preferred schema nullable hint =
      resolveWith document room [] schema.orEmpty hint >>= wrap nullable := by
  have hp : preferred = none ∨ preferred = some "" := by
    cases preferred with
    | none => exact .inl rfl
    | some text => exact .inr (congrArg some h)
  rcases hp with rfl | rfl <;> rfl

theorem resolveWithin_named (room : Nat) (document : Value) {text : String} (htext : text ≠ "")
    (schema : Value) (nullable : Bool) (hint : String) :
    resolveWithin room document (some text) schema nullable hint =
      (claim text >>= fun name => register name (fun _ => pure ())
        (describe document (resolveWith document room []) schema.orEmpty name)) >>=
          wrap nullable := by
  cases nullable <;>
  · simp only [resolveWithin, bind_assoc, Bool.false_eq_true, if_true, if_false]
    rfl

/-- Without a preferred name the type is that of the shape or the reference. -/
theorem resolve_anonymous (document : Value) {preferred : Option String}
    (h : preferred.getD "" = "") (schema : Value) (nullable : Bool) (hint : String) :
    Schema.resolve document preferred schema nullable hint =
      resolveAnonymous document schema.orEmpty hint >>= wrap nullable :=
  resolveWithin_anonymous _ document h schema nullable hint

/-- A preferred name that is not empty gets a type of its own. -/
theorem resolve_named (document : Value) {text : String} (htext : text ≠ "") (schema : Value)
    (nullable : Bool) (hint : String) :
    Schema.resolve document (some text) schema nullable hint =
      (claim text >>= fun name => register name (fun _ => pure ())
        (describe document (resolveWith document (resolveDepth document schema.orEmpty) [])
          schema.orEmpty name)) >>= wrap nullable :=
  resolveWithin_named _ document htext schema nullable hint

/-- A resolution is one of a shape or a reference, or one under a preferred name. -/
theorem resolve_cases (document : Value) (preferred : Option String) (schema : Value)
    (nullable : Bool) (hint : String) :
    (preferred.getD "" = "" ∧ Schema.resolve document preferred schema nullable hint =
      resolveAnonymous document schema.orEmpty hint >>= wrap nullable) ∨
    ∃ text, preferred = some text ∧ text ≠ "" ∧
      Schema.resolve document preferred schema nullable hint =
        (claim text >>= fun name => register name (fun _ => pure ())
          (describe document (resolveWith document (resolveDepth document schema.orEmpty) [])
            schema.orEmpty name)) >>= wrap nullable := by
  by_cases h : preferred.getD "" = ""
  · exact .inl ⟨h, resolve_anonymous document h schema nullable hint⟩
  · cases preferred with
    | none => exact absurd rfl h
    | some text => exact .inr ⟨text, rfl, h, resolve_named document h schema nullable hint⟩

/-- How the type of a preferred name is registered. -/
theorem outcome_claim_register (text : String) (body : String → RegistryM Entry) (r : Registry) :
    outcome (claim text >>= fun name => register name (fun _ => pure ()) (body name)) r =
      match outcome (body (r.nameFor text)) (r.named (r.nameFor text)) with
      | (.ok e, t) =>
        (.ok r.entries.size, t.replace r.entries.size { e with name := some (r.nameFor text) })
      | (.error fault, t) => (.error fault, t) := by
  rw [outcome_bind, outcome_claim]
  exact outcome_register (r.nameFor text) (fun _ => id) (body (r.nameFor text)) _

end OpenApiClient.Schema

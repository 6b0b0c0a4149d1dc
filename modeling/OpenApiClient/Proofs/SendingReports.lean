import OpenApiClient.Proofs.OperationRuns

/-! # What is reported while an operation is built

The warnings of a run are told apart from its other records. Resolving a schema warns of nothing, and
neither does anything else on the way to a method but its parameters. Each of them is reported once at
most, when it is classified: where its place or its style keeps it from being sent. -/
namespace OpenApiClient

open Schema Schema.RegistryM

variable {α β : Type} {r s t : Registry}

def Schema.Registry.warningRecords (r : Registry) : List LogRecord :=
  r.records.filter LogRecord.isWarning

theorem Schema.Registry.warningRecords_logged (r : Registry) (record : LogRecord) :
    (r.logged record).warningRecords =
      r.warningRecords ++ if record.isWarning then [record] else [] := by
  rw [warningRecords, records, logged, List.reverse_cons, List.filter_append]
  by_cases h : record.isWarning
  · rw [if_pos h, List.filter_singleton, h]
    rfl
  · rw [if_neg h, List.filter_singleton, Bool.eq_false_iff.mpr h]
    rfl

/-- What holds of every answer of a step on a registry and of the warnings that it adds. -/
def Warns (m : RegistryM α) (P : α → List LogRecord → Prop) : Prop :=
  ∀ r a t, outcome m r = (.ok a, t) →
    ∃ ws, t.warningRecords = r.warningRecords ++ ws ∧ P a ws

def IsQuiet (m : RegistryM α) : Prop := Warns m fun _ ws => ws = []

namespace Warns

variable {m : RegistryM α} {f : α → RegistryM β} {P : α → List LogRecord → Prop}
  {Q : β → List LogRecord → Prop}

theorem pure {a : α} (h : P a []) : Warns (pure a) P := by
  intro r _ _ hm
  obtain ⟨rfl, rfl⟩ := pure_ok_iff.mp hm
  exact ⟨[], (List.append_nil _).symm, h⟩

theorem throw {e : Fault} : Warns (throw e) P := by
  intro r _ _ hm
  simp at hm

theorem bind (h : Warns m P) (hf : ∀ a ws, P a ws → Warns (f a) fun b ws' => Q b (ws ++ ws')) :
    Warns (m >>= f) Q := by
  intro r b t hm
  obtain ⟨a, s, ha, hb⟩ := bind_ok_iff.mp hm
  obtain ⟨ws, hws, hP⟩ := h _ _ _ ha
  obtain ⟨ws', hws', hQ⟩ := hf a ws hP _ _ _ hb
  exact ⟨ws ++ ws', by rw [hws', hws, List.append_assoc], hQ⟩

theorem quiet_bind (h : IsQuiet m) (hf : ∀ a, Warns (f a) Q) : Warns (m >>= f) Q :=
  h.bind fun a ws hws => by
    rw [hws]
    exact hf a

theorem throw_bind {e : Fault} : Warns ((MonadExcept.throw e : RegistryM α) >>= f) Q := by
  intro r _ _ hm
  obtain ⟨_, _, ha, -⟩ := bind_ok_iff.mp hm
  simp at ha

theorem lift_bind {x : Except Fault α} (h : ∀ a, x = .ok a → Warns (f a) Q) :
    Warns (liftM x >>= f) Q := by
  intro r b t hm
  obtain ⟨a, ha, hb⟩ := lift_bind_ok_iff.mp hm
  exact h a ha _ _ _ hb

theorem get_bind {f : Registry → RegistryM β} (h : ∀ r, Warns (f r) Q) :
    Warns (MonadState.get >>= f) Q := by
  intro r b t hm
  rw [outcome_bind_of_ok (outcome_get r)] at hm
  exact h _ _ _ _ hm

theorem log_bind {source : LogSource} {message : String} {f : PUnit → RegistryM β}
    (h : Warns (f ⟨⟩) fun b ws => Q b (⟨.warning, source, message⟩ :: ws)) :
    Warns (logRecord .warning source message >>= f) Q := by
  have hlog : Warns (logRecord .warning source message) fun _ ws =>
      ws = [⟨.warning, source, message⟩] := by
    intro r _ _ hm
    simp only [logRecord, outcome_modify, Prod.mk.injEq] at hm
    exact ⟨_, hm.2 ▸ r.warningRecords_logged _, rfl⟩
  exact hlog.bind fun _ ws hws => hws ▸ h

private theorem debug (source : LogSource) (message : String) :
    IsQuiet (logRecord .debug source message) := by
  intro r _ _ hm
  simp only [logRecord, outcome_modify, Prod.mk.injEq] at hm
  exact ⟨[], hm.2 ▸ r.warningRecords_logged _, rfl⟩

theorem traced (h : Warns m P) : Warns m fun a ws =>
    (∃ s u, outcome m s = (.ok a, u) ∧ u.warningRecords = s.warningRecords ++ ws) ∧ P a ws := by
  intro r a t hm
  obtain ⟨ws, hws, hP⟩ := h r a t hm
  exact ⟨ws, hws, ⟨r, t, hm, hws⟩, hP⟩

/-- What holds of the answers so far and of all warnings since the start is kept by a fold. -/
theorem foldlM {step : β → α → RegistryM β}
    (hstep : ∀ b ws a, Q b ws → Warns (step b a) fun b' ws' => Q b' (ws ++ ws')) :
    ∀ (as : List α) (b : β) {ws : List LogRecord}, Q b ws →
      Warns (as.foldlM step b) fun b' ws' => Q b' (ws ++ ws')
  | [], _, _, h => .pure (by rwa [List.append_nil])
  | a :: as, b, ws, h => by
    rw [List.foldlM_cons]
    refine (hstep b ws a h).bind fun b' ws' h' => ?_
    simpa only [List.append_assoc] using foldlM hstep as b' h'

end Warns

theorem isQuiet_iff {m : RegistryM α} : IsQuiet m ↔
    ∀ {r a t}, outcome m r = (.ok a, t) → t.warningRecords = r.warningRecords := by
  constructor
  · intro h r a t hm
    obtain ⟨_, hws, rfl⟩ := h r a t hm
    rw [hws, List.append_nil]
  · exact fun h r a t hm => ⟨[], by rw [h hm, List.append_nil], rfl⟩

/-! ## Resolving warns of nothing -/

namespace Schema

variable {document schema : Value} {hint key : String} {resolve : Resolver}

theorem Settles.warningRecords {e : Entry} (h : Settles schema hint key e s t) :
    t.warningRecords = s.warningRecords := by
  cases h <;> rfl

private theorem parts_quiet (h : ∀ schema hint, IsQuiet (resolve schema hint)) (parts : List Part) :
    IsQuiet (parts.mapM (resolvePart resolve)) := by
  refine isQuiet_iff.mpr fun {r ids t} hparts => ?_
  induction parts generalizing r ids with
  | nil =>
    simp only [mapM_nil_outcome, Prod.mk.injEq] at hparts
    rw [hparts.2]
  | cons part rest ih =>
    obtain ⟨id, s, others, hpart, hrest, -⟩ := mapM_cons_ok_iff.mp hparts
    rw [ih hrest, isQuiet_iff.mp (h _ _) (resolvePart_ok hpart).1]

theorem describe_quiet (h : ∀ schema hint, IsQuiet (resolve schema hint)) :
    IsQuiet (describe document resolve schema hint) := by
  refine isQuiet_iff.mpr fun hdescribe => ?_
  obtain ⟨_, _, _, -, -, hparts, -⟩ := describe_ok_iff.mp hdescribe
  exact isQuiet_iff.mp (parts_quiet h _) hparts

theorem resolveRef_quiet (h : ∀ schema hint, IsQuiet (resolve schema hint)) (reference : Value) :
    IsQuiet (resolveRef document resolve reference) := by
  refine isQuiet_iff.mpr fun href => ?_
  obtain ⟨text, -, ⟨-, rfl⟩ | ⟨target, e, s, -, -, hdescribe, rfl, rfl⟩⟩ := resolveRef_ok href
  · rfl
  · have hquiet := isQuiet_iff.mp (describe_quiet h) hdescribe
    rw [Registry.warningRecords_logged]
    exact (List.append_nil _).trans hquiet

private theorem resolveWith_quiet (document : Value) (fuel : Nat) (active : List (Value × Nat))
    (schema : Value) (hint : String) : IsQuiet (resolveWith document fuel active schema hint) := by
  induction fuel generalizing active schema hint with
  | zero => exact .throw
  | succ fuel ih =>
    refine isQuiet_iff.mpr fun h => ?_
    rcases resolveWith_ok h with ⟨_, -, -, href⟩ |
      ⟨-, key, -, ⟨-, rfl⟩ | ⟨e, s, -, -, hdescribe, -, hsettles⟩⟩
    · exact isQuiet_iff.mp (resolveRef_quiet (ih []) _) href
    · rfl
    · rw [hsettles.warningRecords, isQuiet_iff.mp (describe_quiet (ih _)) hdescribe]

private theorem wrap_quiet (nullable : Bool) (id : TypeId) : IsQuiet (wrap nullable id) := by
  cases nullable with
  | false => exact .pure rfl
  | true =>
    refine isQuiet_iff.mpr fun {r a t} h => ?_
    have h : outcome (optional id) r = (.ok a, t) := h
    rcases outcome_optional id r with ⟨_, -, h'⟩ | ⟨-, ⟨_, -, h'⟩ | ⟨-, h'⟩⟩ <;>
    · obtain ⟨-, rfl⟩ := Prod.mk.inj (h.symm.trans h')
      rfl

theorem resolve_quiet (document : Value) (preferred : Option String) (schema : Value)
    (nullable : Bool) (hint : String) :
    IsQuiet (Schema.resolve document preferred schema nullable hint) := by
  rcases resolve_cases document preferred schema nullable hint with ⟨-, h⟩ | ⟨text, -, -, h⟩
  · rw [h]
    exact .quiet_bind (resolveWith_quiet document _ [] _ _) (wrap_quiet nullable)
  · rw [h]
    refine .quiet_bind (isQuiet_iff.mpr fun hm => ?_) (wrap_quiet nullable)
    rw [outcome_claim_register] at hm
    split at hm
    · rename_i e s hbody
      have hquiet := isQuiet_iff.mp (describe_quiet (resolveWith_quiet document _ [])) hbody
      rw [← (Prod.mk.inj hm).2]
      exact hquiet
    · cases (Prod.mk.inj hm).1

end Schema

/-! ## What is reported of parameters -/

/-- The records of a parameter with some name, by its place and by whether it goes to the query
table: one that goes nowhere is reported. -/
inductive SendingRecords (name : String) : Place → Bool → List LogRecord → Prop
  | path : SendingRecords name .path false []
  | header : SendingRecords name .header false []
  | query : SendingRecords name .query true []
  | style (style : Value) (h : style ≠ .text "form") :
    SendingRecords name .query false [⟨.warning, .parameters,
      "query parameter " ++ Text.quoted name ++ " uses style " ++ style.literal ++ "; it is not sent"⟩]
  | cookie : SendingRecords name .cookie false [⟨.warning, .parameters,
      "cookie parameter " ++ Text.quoted name ++ " is not sent"⟩]

/-- A parameter that goes to the query table is one of the query. -/
theorem SendingRecords.place_eq_query {name : String} {place : Place} {sent : Bool}
    {records : List LogRecord} (h : SendingRecords name place sent records) (hsent : sent = true) :
    place = .query := by
  cases h with
  | query => rfl
  | _ => cases hsent

namespace Operation

variable {document : Value} {shared : Members} {settings : Settings}

private theorem checkSending_warns (item : Value) (name : String) (place : Place) :
    Warns (checkSending item name place) (SendingRecords name place) := by
  unfold checkSending
  split
  · refine .lift_bind fun style _ => ?_
    dsimp only
    split
    · refine .lift_bind fun allowed _ => ?_
      split
      · exact .throw_bind
      · exact .pure .query
    · exact .log_bind (.pure (.style _ ‹_›))
  · exact .log_bind (.pure .cookie)
  · exact .pure .path
  · exact .pure .header

private theorem presenceOf_quiet (schema : Value) (required : Bool) (type : TypeId)
    (identifier hint : String) :
    IsQuiet (presenceOf document schema required type identifier hint) := by
  unfold presenceOf
  split
  · exact .pure rfl
  · refine .get_bind fun r => ?_
    dsimp only
    split
    · exact .pure rfl
    · exact .quiet_bind (resolve_quiet _ _ _ _ _) fun _ => .pure rfl

private theorem classify_warns (parameter : Value) :
    Warns (classify document shared settings parameter) fun p ws =>
      SendingRecords p.name p.place p.inQueryTable ws := by
  rw [classify]
  refine .lift_bind fun found _ => .lift_bind fun rawName _ => .lift_bind fun rawPlace _ => ?_
  dsimp only
  split
  · rw [pure_bind]
    refine .lift_bind fun name _ => .lift_bind fun reserved _ => .lift_bind fun required _ =>
      .lift_bind fun schema _ => .quiet_bind (resolve_quiet _ _ _ _ _) fun type =>
      .get_bind fun r => .lift_bind fun described _ =>
      .bind (checkSending_warns _ _ _) fun sent ws hws =>
      .quiet_bind (presenceOf_quiet _ _ _ _ _) fun found => .get_bind fun r =>
      .lift_bind fun text _ => .lift_bind fun description _ => ?_
    exact .pure (by rwa [List.append_nil])
  · exact .throw_bind

/-- What one classification reports of the parameter that it ends with. -/
structure Reports (document : Value) (shared : Members) (settings : Settings) (p : Parameter)
    (records : List LogRecord) : Prop where
  logged : ∃ parameter s u, outcome (classify document shared settings parameter) s = (.ok p, u) ∧
    u.warningRecords = s.warningRecords ++ records
  sending : SendingRecords p.name p.place p.inQueryTable records

/-- The parameters of an operation are reported one by one. -/
theorem classifyAll_warns (parameters : List Value) :
    Warns (classifyAll document shared settings parameters) fun ps ws =>
      ∃ records, List.Forall₂ (Reports document shared settings) ps records ∧
        ws = records.flatten := by
  have hnone : ∃ records, List.Forall₂ (Reports document shared settings) [] records ∧
      ([] : List LogRecord) = records.flatten := ⟨[], .nil, rfl⟩
  refine Warns.foldlM (Q := fun ps ws => ∃ records,
    List.Forall₂ (Reports document shared settings) ps records ∧ ws = records.flatten)
    (fun classified ws parameter h => ?_) parameters [] hnone
  obtain ⟨records, hrecords, rfl⟩ := h
  refine (classify_warns parameter).traced.bind fun p ws hp => ?_
  split
  · exact .throw
  · obtain ⟨⟨s, u, hrun, hws⟩, hsending⟩ := hp
    refine .pure ⟨records ++ [ws], ?_, by simp⟩
    exact List.rel_append hrecords (.cons ⟨⟨parameter, s, u, hrun, hws⟩, hsending⟩ .nil)

private theorem requestBody_quiet (declaration : Value) (operation : String) :
    IsQuiet (requestBody document settings declaration operation) := by
  rw [requestBody]
  refine .lift_bind fun declared _ => ?_
  split
  · exact .pure rfl
  · refine .lift_bind fun body _ => .lift_bind fun content _ => .lift_bind fun members _ => ?_
    split
    · exact .pure rfl
    · refine .lift_bind fun binary _ => ?_
      split
      · exact .pure rfl
      · refine .lift_bind fun schema _ => ?_
        split
        · exact .pure rfl
        · dsimp only
          split
          all_goals
            exact .quiet_bind (resolve_quiet _ _ _ _ _) fun type => .get_bind fun r =>
              .lift_bind fun text _ => .pure rfl

private theorem mediaType_quiet (media : Value) (preferred : Option String)
    {rest : RegistryM (Option TypeId)} (hrest : IsQuiet rest) :
    IsQuiet (do
      let schema ← media.get "schema"
      if schema.isTruthy = true then do
        let type ← Schema.resolve document preferred schema false ""
        return some type
      else rest) := by
  refine .lift_bind fun schema _ => ?_
  split
  · exact .quiet_bind (resolve_quiet _ _ _ _ _) fun _ => .pure rfl
  · exact hrest

private theorem contentType_quiet (content : Members) (operation : String) :
    IsQuiet (contentType document content operation) := by
  unfold contentType
  dsimp only
  split
  on_goal 1 => refine .lift_bind fun _ _ => mediaType_quiet _ _ ?_
  all_goals
    split
    · exact .pure rfl
    · split
      · exact mediaType_quiet _ _ .throw
      · split
        · exact .lift_bind fun _ _ => mediaType_quiet _ _ .throw
        · exact .throw

private theorem responseType_quiet (declaration : Value) (operation : String) :
    IsQuiet (responseType document declaration operation) := by
  unfold responseType
  refine .lift_bind fun responses _ => ?_
  dsimp only
  split
  · exact .throw_bind
  · refine .lift_bind fun members _ => ?_
    split
    · exact .throw
    · refine .lift_bind fun response _ => .lift_bind fun content _ => ?_
      split
      · exact .pure rfl
      · exact .lift_bind fun members _ => contentType_quiet members operation

private theorem clientCall_quiet (operation : String) (method : HttpMethod) (body : Option RequestBody)
    (passesHeaders : Bool) :
    IsQuiet (clientCall settings operation method body passesHeaders) := by
  unfold clientCall
  split
  · exact .pure rfl
  · split
    · exact .quiet_bind (.debug _ _) fun _ => .lift_bind fun _ _ => .pure rfl
    · split
      · exact .pure rfl
      · exact .throw

/-- Building a method warns of what its parameters are reported for, in their order, and of nothing
else. -/
theorem build_warns (listed : ListedOperation) :
    Warns (build document shared settings listed) fun m ws =>
      ∃ records, List.Forall₂ (Reports document shared settings) m.parameters records ∧
        ws = records.flatten := by
  unfold build
  obtain ⟨path, method, declaration⟩ := listed
  dsimp only
  refine .lift_bind fun operation _ => .lift_bind fun tag _ =>
    .quiet_bind (requestBody_quiet _ _) fun body => .lift_bind fun written _ =>
    .lift_bind fun declared _ => .bind (classifyAll_warns _) fun ps ws hws =>
    .quiet_bind (responseType_quiet _ _) fun response => .lift_bind fun path _ =>
    .lift_bind fun code _ => .quiet_bind (clientCall_quiet _ _ _ _) fun call =>
    .lift_bind fun reserved _ => .lift_bind fun name _ => ?_
  split
  · rw [pure_bind]
    exact .lift_bind fun docs _ => .pure (by rwa [List.append_nil])
  · exact .get_bind fun r => .lift_bind fun text _ => .lift_bind fun docs _ =>
      .pure (by rwa [List.append_nil])

end Operation

end OpenApiClient

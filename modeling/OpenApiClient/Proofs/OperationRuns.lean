import OpenApiClient.Proofs.TypeExprs
import OpenApiClient.Proofs.MethodNames

/-! # Operations on a registry

Building the methods of a document changes the registry in the same steps as calls do. The types of
a method are those of the registry, and their texts are what was written of them when the method was
built; nothing that happens afterwards changes what would be written. -/
namespace OpenApiClient

open Schema Schema.RegistryM

variable {α β : Type} {r s t : Registry}

structure Schema.Registry.Grows (r t : Registry) : Prop where
  before : r.WellFormed
  wellFormed : t.WellFormed
  steps : r.Steps t
  kept : r.Extends t

namespace Schema.Registry.Grows

theorem refl (h : r.WellFormed) : r.Grows r := ⟨h, h, .refl, .refl r⟩

theorem trans (h : r.Grows s) (h' : s.Grows t) : r.Grows t :=
  ⟨h.before, h'.wellFormed, h.steps.trans h'.steps, h.kept.trans h'.kept⟩

theorem lt (h : r.Grows t) {id : TypeId} (hid : id < r.entries.size) : id < t.entries.size :=
  Nat.lt_of_lt_of_le hid h.kept.size

theorem logged (h : r.WellFormed) (record : LogRecord) : r.Grows (r.logged record) :=
  ⟨h, (Step.logged record).wellFormed h, .single (.logged record), (Extends.refl r).logged record⟩

private theorem logs (h : r.WellFormed) (records : List LogRecord) :
    r.Grows (records.foldl Registry.logged r) := by
  induction records generalizing r with
  | nil => exact .refl h
  | cons record rest ih =>
    have hfirst : r.Grows (r.logged record) := .logged h record
    exact hfirst.trans (ih hfirst.wellFormed)

end Schema.Registry.Grows

/-- What holds of every answer of a step on a registry, and of the registry that the step leaves with
it. -/
def Yields (r : Registry) (m : RegistryM α) (P : α → Registry → Prop) : Prop :=
  ∀ a t, r.WellFormed → outcome m r = (.ok a, t) → r.Grows t ∧ P a t

namespace Yields

variable {m : RegistryM α} {f : α → RegistryM β} {P : α → Registry → Prop}
  {Q : β → Registry → Prop}

private theorem given (h : r.WellFormed → Yields r m P) : Yields r m P :=
  fun a t hr hm => h hr a t hr hm

theorem bind (h : Yields r m P) (hf : ∀ {a s}, r.Grows s → P a s → Yields s (f a) Q) :
    Yields r (m >>= f) Q := by
  intro b t hr hm
  obtain ⟨a, s, ha, hb⟩ := bind_ok_iff.mp hm
  obtain ⟨hs, ha⟩ := h _ _ hr ha
  obtain ⟨ht, hb⟩ := hf hs ha _ _ hs.wellFormed hb
  exact ⟨hs.trans ht, hb⟩

theorem pure {a : α} (h : P a r) : Yields r (pure a) P := by
  intro _ _ hr hm
  obtain ⟨rfl, rfl⟩ := pure_ok_iff.mp hm
  exact ⟨.refl hr, h⟩

theorem throw {e : Fault} : Yields r (throw e) P := by
  intro _ _ hr hm
  simp at hm

private theorem adapt {locate : Fault → Fault} (h : Yields r m P) :
    Yields r (ExceptT.adapt locate m) P := by
  intro a t hr hm
  exact h _ _ hr (adapt_ok_iff.mp hm)

theorem throw_bind {e : Fault} : Yields r ((MonadExcept.throw e : RegistryM α) >>= f) Q := by
  intro _ _ hr hm
  obtain ⟨_, _, ha, -⟩ := bind_ok_iff.mp hm
  simp at ha

theorem lift_bind {x : Except Fault α} (h : ∀ a, x = .ok a → Yields r (f a) Q) :
    Yields r (liftM x >>= f) Q := by
  intro b t hr hm
  obtain ⟨a, ha, hb⟩ := lift_bind_ok_iff.mp hm
  exact h a ha _ _ hr hb

theorem get_bind {f : Registry → RegistryM β} (h : Yields r (f r) Q) :
    Yields r (MonadState.get >>= f) Q := by
  intro b t hr hm
  rw [outcome_bind_of_ok (outcome_get r)] at hm
  exact h _ _ hr hm

/-- What every step of a fold keeps, and what the growth of the registry keeps, holds in the end. -/
theorem foldlM {step : β → α → RegistryM β}
    (hstep : ∀ b a r, Q b r → Yields r (step b a) Q) :
    ∀ (as : List α) (b : β) {r : Registry}, Q b r → Yields r (as.foldlM step b) Q
  | [], _, _, h => .pure h
  | a :: as, b, r, h => by
    rw [List.foldlM_cons]
    exact .bind (hstep b a r h) fun _ h => foldlM hstep as _ h

private theorem mapM {R : β → Registry → Prop} {f : α → RegistryM β} {as : List α}
    (hR : ∀ {b s t}, s.Grows t → R b s → R b t)
    (h : ∀ a ∈ as, ∀ {s}, r.Grows s → Yields s (f a) R) :
    Yields r (as.mapM f) fun bs t => ∀ b ∈ bs, R b t := by
  induction as generalizing r with
  | nil => exact .pure (by simp)
  | cons a as ih =>
    rw [List.mapM_cons]
    refine .given fun hr => .bind (h a List.mem_cons_self (.refl hr)) fun hs hb => ?_
    refine .bind (ih fun a ha {_} hs' => h a (List.mem_cons_of_mem _ ha) (hs.trans hs'))
      fun ht hbs => .pure ?_
    exact List.forall_mem_cons.mpr ⟨hR ht hb, hbs⟩

theorem log (level : LogLevel) (source : LogSource) (message : String) :
    Yields r (logRecord level source message) fun _ _ => True := by
  intro _ _ hr hm
  simp only [logRecord, outcome_modify, Prod.mk.injEq] at hm
  obtain ⟨-, rfl⟩ := hm
  exact ⟨.logged hr _, trivial⟩

theorem resolve (document : Value) (preferred : Option String) (schema : Value) (nullable : Bool)
    (hint : String) : Yields r (Schema.resolve document preferred schema nullable hint)
      fun id t => id < t.entries.size := by
  intro id t hr hm
  obtain ⟨hsteps, hid⟩ := call_steps document hr ⟨preferred, schema, nullable, hint⟩
  have hkept := r.afterCall_extends document ⟨preferred, schema, nullable, hint⟩
  have hrun : outcome (Call.run document ⟨preferred, schema, nullable, hint⟩) r = (.ok id, t) := hm
  rw [Registry.afterCall, hrun] at hsteps hid hkept
  exact ⟨⟨hr, hsteps.wellFormed hr, hsteps, hkept⟩, hid rfl⟩

end Yields

/-! ## Texts of types -/

/-- Whether a type is there, and the text is what is written of it. -/
def Schema.Registry.Writes (r : Registry) (qualifier : String) (view : View) (id : TypeId)
    (text : String) : Prop :=
  id < r.entries.size ∧ text = (r.typeExpr view id).text qualifier

namespace Schema.Registry.Writes

variable {qualifier text : String} {view : View} {id : TypeId}

theorem grows (h : r.Writes qualifier view id text) (ht : r.Grows t) :
    t.Writes qualifier view id text :=
  ⟨ht.lt h.1, by rw [ht.before.typeExpr_extends ht.kept view h.1, h.2]⟩

private theorem of_typeText (hr : r.WellFormed) (hid : id < r.entries.size) {modelsModule : Value}
    (h : r.typeText modelsModule view id = .ok text) :
    r.Writes (Schema.Registry.qualifier modelsModule) view id text := by
  rw [typeText, hr.typeTextWith_typeExpr _ view hid] at h
  exact ⟨hid, (Except.ok.inj h).symm⟩

end Schema.Registry.Writes

theorem Yields.typeText_bind {modelsModule : Value} {view : View} {id : TypeId}
    {f : String → RegistryM β} {Q : β → Registry → Prop} (hr : r.WellFormed)
    (hid : id < r.entries.size)
    (h : ∀ text, r.Writes (Schema.Registry.qualifier modelsModule) view id text →
      Yields r (f text) Q) :
    Yields r (liftM (r.typeText modelsModule view id) >>= f) Q :=
  .lift_bind fun text htext => h text (.of_typeText hr hid htext)

def RequestBody.typeExpr (r : Registry) (qualifier : String) (b : RequestBody) : TypeExpr :=
  match b.type with
  | none => .either (.word "bytes") (.within "IO[" (.word "bytes"))
  | some type =>
    let written := r.typeExpr .owned type
    if b.encoding = .raw ∧ written.text qualifier = "str" then
      .either (.word "str") (.word "bytes")
    else written

def responseExpr (r : Registry) (response : Option TypeId) : TypeExpr :=
  response.elim (.word "None") (r.typeExpr .owned)

structure RequestBody.Written (r : Registry) (qualifier : String) (b : RequestBody) : Prop where
  type : ∀ type ∈ b.type, type < r.entries.size
  text : b.typeText = (b.typeExpr r qualifier).text qualifier

structure ClientMethod.Written (r : Registry) (qualifier : String) (m : ClientMethod) : Prop where
  parameters : ∀ p ∈ m.parameters, r.Writes qualifier .accepted p.type p.typeText
  body : ∀ b ∈ m.body, b.Written r qualifier
  responseType : ∀ type ∈ m.response, type < r.entries.size
  responseText : m.responseText = (responseExpr r m.response).text qualifier

theorem RequestBody.Written.grows {qualifier : String} {b : RequestBody}
    (h : b.Written r qualifier) (ht : r.Grows t) : b.Written t qualifier where
  type type htype := ht.lt (h.type type htype)
  text := by
    rw [h.text, typeExpr, typeExpr]
    cases htype : b.type with
    | none => rfl
    | some type =>
      dsimp only
      rw [ht.before.typeExpr_extends ht.kept .owned (h.type type htype)]

/-- What is written of the types of a method stays the same while the registry grows. -/
theorem ClientMethod.Written.grows {qualifier : String} {m : ClientMethod}
    (h : m.Written r qualifier) (ht : r.Grows t) : m.Written t qualifier where
  parameters p hp := (h.parameters p hp).grows ht
  body b hb := (h.body b hb).grows ht
  responseType type htype := ht.lt (h.responseType type htype)
  responseText := by
    rw [h.responseText, responseExpr, responseExpr]
    cases htype : m.response with
    | none => rfl
    | some type =>
      rw [Option.elim_some, Option.elim_some,
        ht.before.typeExpr_extends ht.kept .owned (h.responseType type htype)]

namespace Operation

variable {document : Value} {shared : Members} {settings : Settings}

private theorem checkSending_yields (item : Value) (name : String) (place : Place) :
    Yields r (checkSending item name place) fun _ _ => True := by
  unfold checkSending
  split
  · refine .lift_bind fun style _ => ?_
    dsimp only
    split
    · refine .lift_bind fun allowed _ => ?_
      split
      · exact .throw_bind
      · exact .pure trivial
    · exact .bind (.log _ _ _) fun _ _ => .pure trivial
  · exact .bind (.log _ _ _) fun _ _ => .pure trivial
  · exact .pure trivial
  · exact .pure trivial

private theorem presenceOf_yields (schema : Value) (required : Bool) {type : TypeId}
    (identifier hint : String) (htype : type < r.entries.size) :
    Yields r (presenceOf document schema required type identifier hint)
      fun found t => found.1 < t.entries.size := by
  rw [presenceOf]
  split
  · exact .pure htype
  · refine .get_bind ?_
    dsimp only
    split
    · exact .pure htype
    · exact .bind (.resolve _ _ _ _ _) fun _ hid => .pure hid

theorem classify_yields (parameter : Value) :
    Yields r (classify document shared settings parameter) fun p t =>
      t.Writes (Registry.qualifier settings.modelsModule) .accepted p.type p.typeText := by
  rw [classify]
  refine .lift_bind fun found _ => .lift_bind fun rawName _ => .lift_bind fun rawPlace _ => ?_
  dsimp only
  split
  · rw [pure_bind]
    refine .lift_bind fun name _ => .lift_bind fun reserved _ => .lift_bind fun required _ =>
      .lift_bind fun schema _ => .bind (.resolve _ _ _ _ _) fun hs htype => .get_bind <|
      .lift_bind fun described _ => .bind (checkSending_yields _ _ _) fun hs' _ =>
      .bind (presenceOf_yields _ _ _ _ (hs'.lt htype)) fun ht htype => .get_bind <|
      .typeText_bind ht.wellFormed htype fun text htext => .lift_bind fun description _ => ?_
    exact .pure htext
  · exact .throw_bind

private theorem classifyAll_yields (parameters : List Value) :
    Yields r (classifyAll document shared settings parameters) fun ps t =>
      ∀ p ∈ ps, t.Writes (Registry.qualifier settings.modelsModule) .accepted p.type p.typeText := by
  refine .foldlM (fun classified parameter s h => ?_) _ _
    (by simp)
  refine .bind (classify_yields parameter) fun ht hp => ?_
  split
  · exact .throw
  · refine .pure fun p hp' => ?_
    rcases List.mem_append.mp hp' with hp' | hp'
    · exact (h p hp').grows ht
    · rw [List.mem_singleton.mp hp']
      exact hp

private theorem requestBody_yields (declaration : Value) (operation : String) :
    Yields r (requestBody document settings declaration operation) fun body t =>
      ∀ b ∈ body, b.Written t (Registry.qualifier settings.modelsModule) := by
  rw [requestBody]
  refine .lift_bind fun declared _ => ?_
  split
  · exact .pure (by simp)
  · refine .lift_bind fun body _ => .lift_bind fun content _ => .lift_bind fun members _ => ?_
    split
    · exact .pure (by simp)
    · refine .lift_bind fun binary _ => ?_
      split
      · refine .pure ?_
        rintro _ ⟨⟩
        exact ⟨by simp, by simp [RequestBody.typeExpr, TypeExpr.text]⟩
      · refine .lift_bind fun schema _ => ?_
        split
        · exact .pure (by simp)
        · dsimp only
          split
          · refine .bind (.resolve _ _ _ _ _) fun ht htype => .get_bind <|
              .typeText_bind ht.wellFormed htype fun text htext => .pure ?_
            rintro _ ⟨⟩
            exact ⟨by simpa using htext.1, by simp [RequestBody.typeExpr, htext.2]⟩
          · refine .bind (.resolve _ _ _ _ _) fun ht htype => .get_bind <|
              .typeText_bind ht.wellFormed htype fun text htext => .pure ?_
            rintro _ ⟨⟩
            refine ⟨by simpa using htext.1, ?_⟩
            simp only [RequestBody.typeExpr, ← htext.2, true_and]
            split
            · rfl
            · exact htext.2

/-- The schema of a media gives a type that is there, or the search goes on. -/
theorem mediaType_yields (media : Value) (preferred : Option String)
    {rest : RegistryM (Option TypeId)}
    (hrest : Yields r rest fun response t => ∀ type ∈ response, type < t.entries.size) :
    Yields r (do
      let schema ← media.get "schema"
      if schema.isTruthy = true then do
        let type ← Schema.resolve document preferred schema false ""
        return some type
      else rest)
      fun response t => ∀ type ∈ response, type < t.entries.size := by
  refine .lift_bind fun schema _ => ?_
  split
  · exact .bind (.resolve _ _ _ _ _) fun _ htype => .pure (by simpa using htype)
  · exact hrest

private theorem contentType_yields (content : Members) (operation : String) :
    Yields r (contentType document content operation) fun response t =>
      ∀ type ∈ response, type < t.entries.size := by
  unfold contentType
  dsimp only
  split
  on_goal 1 => refine .lift_bind fun _ _ => mediaType_yields _ _ ?_
  all_goals
    split
    · exact .pure (by simp)
    · split
      · exact mediaType_yields _ _ .throw
      · split
        · exact .lift_bind fun _ _ => mediaType_yields _ _ .throw
        · exact .throw

private theorem responseType_yields (declaration : Value) (operation : String) :
    Yields r (responseType document declaration operation) fun response t =>
      ∀ type ∈ response, type < t.entries.size := by
  unfold responseType
  refine .lift_bind fun responses _ => ?_
  dsimp only
  split
  · exact .throw_bind
  · refine .lift_bind fun members _ => ?_
    split
    · exact .throw
    · refine .lift_bind fun response _ => .lift_bind fun content _ => ?_
      split
      · exact .pure (by simp)
      · exact .lift_bind fun members _ => contentType_yields members operation

private theorem clientCall_yields (operation : String) (method : HttpMethod) (body : Option RequestBody)
    (passesHeaders : Bool) :
    Yields r (clientCall settings operation method body passesHeaders) fun _ _ => True := by
  unfold clientCall
  split
  · exact .pure trivial
  · split
    · exact .bind (.log _ _ _) fun _ _ => .lift_bind fun _ _ => .pure trivial
    · split
      · exact .pure trivial
      · exact .throw

theorem build_yields (listed : ListedOperation) :
    Yields r (build document shared settings listed) fun m t =>
      m.Written t (Registry.qualifier settings.modelsModule) := by
  unfold build
  obtain ⟨path, method, declaration⟩ := listed
  dsimp only
  refine .lift_bind fun operation _ => .lift_bind fun tag _ =>
    .bind (requestBody_yields _ _) fun _ hbody => .lift_bind fun written _ =>
    .lift_bind fun declared _ => .bind (classifyAll_yields _) fun hs hparameters =>
    .bind (responseType_yields _ _) fun hs' hresponse => .lift_bind fun path _ =>
    .lift_bind fun code _ => .bind (clientCall_yields _ _ _ _) fun hs'' _ =>
    .lift_bind fun reserved _ => .lift_bind fun name _ => ?_
  have hbody := fun b hb => (hbody b hb).grows ((hs.trans hs').trans hs'')
  have hparameters := fun p hp => (hparameters p hp).grows (hs'.trans hs'')
  have hresponse := fun type htype => hs''.lt (hresponse type htype)
  split
  · rw [pure_bind]
    exact .lift_bind fun docs _ => .pure ⟨hparameters, hbody, hresponse, rfl⟩
  · refine .get_bind <| .typeText_bind hs''.wellFormed (hresponse _ rfl) fun text htext =>
      .lift_bind fun docs _ => .pure ⟨hparameters, hbody, hresponse, htext.2⟩

private theorem buildLocated_yields (listed : ListedOperation) :
    Yields r (buildLocated document shared settings listed) fun m t =>
      m.Written t (Registry.qualifier settings.modelsModule) :=
  .adapt (build_yields listed)

def AllWritten (r : Registry) (qualifier : String) (groups : List TagGroup) : Prop :=
  ∀ g ∈ groups, ∀ m ∈ g.methods, m.Written r qualifier

theorem AllWritten.grows {qualifier : String} {groups : List TagGroup}
    (h : AllWritten r qualifier groups) (ht : r.Grows t) : AllWritten t qualifier groups :=
  fun g hg m hm => (h g hg m hm).grows ht

private theorem AllWritten.add {qualifier : String} {groups : List TagGroup} {m : ClientMethod}
    (h : AllWritten r qualifier groups) (hm : m.Written r qualifier) (moduleName : String) :
    AllWritten r qualifier (addToGroup groups moduleName m) := by
  intro g hg other hother
  rw [addToGroup] at hg
  split at hg
  · obtain ⟨old, hold, rfl⟩ := List.mem_map.mp hg
    split at hother
    · rcases List.mem_append.mp hother with hother | hother
      · exact h old hold other hother
      · rwa [List.mem_singleton.mp hother]
    · exact h old hold other hother
  · rcases List.mem_append.mp hg with hg | hg
    · exact h g hg other hother
    · rw [List.mem_singleton.mp hg] at hother
      rwa [List.mem_singleton.mp hother]

private theorem addOperation_yields {groups : List TagGroup} (listed : ListedOperation)
    (h : AllWritten r (Registry.qualifier settings.modelsModule) groups) :
    Yields r (addOperation document shared settings groups listed) fun groups t =>
      AllWritten t (Registry.qualifier settings.modelsModule) groups := by
  unfold addOperation
  refine .bind (buildLocated_yields listed) fun hs hm => .lift_bind fun reserved _ => ?_
  exact .bind (.log _ _ _) fun ht _ => .pure ((h.grows (hs.trans ht)).add (hm.grows ht) _)

theorem renameMethods_yields {qualifier : String} {group : TagGroup}
    (h : ∀ m ∈ group.methods, m.Written r qualifier) :
    Yields r (renameMethods group) fun renamed t => ∀ m ∈ renamed.methods, m.Written t qualifier := by
  intro renamed t hr hrun
  obtain ⟨records, hrecords⟩ := renameMethods_ok group r
  obtain ⟨hrenamed, rfl⟩ := Prod.mk.inj (hrecords.symm.trans hrun)
  obtain rfl := Except.ok.inj hrenamed
  have hgrows : r.Grows (records.foldl Registry.logged r) := .logs hr records
  refine ⟨hgrows, fun m hm => ?_⟩
  obtain ⟨⟨old, name⟩, hold, rfl⟩ := List.mem_map.mp hm
  have hwritten := (h old (List.of_mem_zip hold).1).grows hgrows
  exact ⟨hwritten.parameters, hwritten.body, hwritten.responseType, hwritten.responseText⟩

/-- The methods of a document have the texts of their types. -/
theorem groups_yields :
    Yields r (groups document settings) fun gs t =>
      AllWritten t (Registry.qualifier settings.modelsModule) gs := by
  have hstep : ∀ shared gs (listed : Except Fault ListedOperation) s,
      AllWritten s (Registry.qualifier settings.modelsModule) gs →
      Yields s (do
        let listed ← liftM listed
        addOperation document shared settings gs listed)
        fun gs t => AllWritten t (Registry.qualifier settings.modelsModule) gs :=
    fun _ _ _ _ h => .lift_bind fun listed _ => addOperation_yields listed h
  unfold groups
  refine .lift_bind fun shared _ => .bind (.foldlM (hstep shared) _ [] (by simp [AllWritten]))
    fun _ hgs => .bind (.mapM (fun ht h m hm => (h m hm).grows ht) fun g hg {_} hs =>
      renameMethods_yields fun m hm => (hgs g hg m hm).grows hs) fun _ hgs =>
    .bind (.log _ _ _) fun ht _ => .pure fun g hg m hm => ?_
  exact (hgs g (List.mem_mergeSort.mp hg) m hm).grows ht

end Operation

end OpenApiClient

import OpenApiClient.Proofs.Unfoldings

/-! # What is resolved before

A schema means the same after all histories of calls. What it means is read from the registries:
both know its type, for the schema itself, so they unfold it alike. -/
namespace OpenApiClient.Schema

open RegistryM

variable {document schema : Value} {hint hint' : String} {nullable : Bool}
  {r s t t' : Registry} {i j i' j' : TypeId}

theorem Agree.optional_iff (hdocument : document.IsJson) (hr : Sound document r [])
    (hs : Sound document s []) (h : Agree document r s i j) :
    (∃ item, r.body? i = some (.optional item)) ↔ ∃ item, s.body? j = some (.optional item) := by
  obtain ⟨b, c, hb, hc, hbc⟩ := h.bodies hdocument hr hs
  rw [hb, hc]
  cases hbc <;> simp

private theorem Agree.extends (h : Agree document r s i j) (hr : r.Extends t) (hs : s.Extends t') :
    Agree document t t' i j := by
  obtain ⟨v, w, ι, κ, hv, hw, halike, hι, hκ, hi, hj⟩ := h
  exact ⟨v, w, ι, κ, hv, hw, halike, hι, hκ, hr.knows hi, hs.knows hj⟩

/-- Types that agree unfold alike when both are wrapped. -/
theorem Wraps.unfold_eq (hdocument : document.IsJson) (hr : Sound document r [])
    (hs : Sound document s []) (ht : Sound document t []) (ht' : Sound document t' [])
    (h : Agree document r s i j) (h' : Agree document t t' i j) (hi : Wraps r nullable i i' t)
    (hj : Wraps s nullable j j' t') :
    (t.body? i').isSome ∧ ∀ n, t.unfold n i' = t'.unfold n j' := by
  have hiff := h.optional_iff hdocument hr hs
  cases hi with
  | same hoptional =>
    cases hj with
    | same hoptional' =>
      obtain ⟨b, c, hb, -, -⟩ := h'.bodies hdocument ht ht'
      exact ⟨by simp [hb], fun n => h'.unfold_eq hdocument ht ht' n⟩
    | optional hnullable hnot hbody =>
      obtain ⟨item, hitem⟩ := hiff.mp (hoptional hnullable)
      exact absurd hitem (hnot item)
  | optional hnullable hnot hbody =>
    cases hj with
    | same hoptional' =>
      obtain ⟨item, hitem⟩ := hiff.mpr (hoptional' hnullable)
      exact absurd hitem (hnot item)
    | optional _ hnot' hbody' =>
      refine ⟨by simp [hbody], fun n => ?_⟩
      cases n with
      | zero => rfl
      | succ n =>
        rw [Registry.unfold, Registry.unfold, hbody, hbody']
        exact congrArg (fun item => some (Level.optional item)) (h'.unfold_eq hdocument ht ht' n)

/-- After any two histories in which no call failed a schema that resolves after both has a type,
the same to every depth. -/
theorem unfold_eq_of_histories (nullable : Bool) (hint hint' : String)
    (hdocument : document.IsJson) {calls calls' : List Call}
    (hcalls : ∀ call ∈ calls ++ calls', Tame document call.schema.orEmpty)
    (hschema : Tame document schema.orEmpty) {ids ids' : List TypeId}
    (hr : outcome (calls.mapM (Call.run document)) {} = (.ok ids, r))
    (hs : outcome (calls'.mapM (Call.run document)) {} = (.ok ids', s))
    (hi : outcome (Schema.resolve document none schema nullable hint) r = (.ok i, t))
    (hj : outcome (Schema.resolve document none schema nullable hint') s = (.ok j, t')) :
    (t.body? i).isSome ∧ ∀ n, t.unfold n i = t'.unfold n j := by
  obtain ⟨hcallsLeft, hcallsRight⟩ := List.forall_mem_append.mp hcalls
  have hsoundLeft := calls_sound hdocument hcallsLeft sound_empty hr
  have hsoundRight := calls_sound hdocument hcallsRight sound_empty hs
  obtain ⟨inner, u, hu, ht, hgrown, hwraps, ⟨-, ι, hι, hinner⟩ | ⟨hne, -⟩⟩ :=
    resolve_sound hdocument hschema hsoundLeft hi
  rotate_left
  · exact absurd rfl hne
  obtain ⟨inner', u', hu', ht', hgrown', hwraps', ⟨-, κ, hκ, hinner'⟩ | ⟨hne, -⟩⟩ :=
    resolve_sound hdocument hschema hsoundRight hj
  rotate_left
  · exact absurd rfl hne
  have hagree : Agree document u u' inner inner' :=
    ⟨_, _, ι, κ, hschema, hschema, .refl _, hι, hκ, hinner, hinner'⟩
  exact hwraps.unfold_eq hdocument hu hu' ht ht' hagree (hagree.extends hgrown hgrown') hwraps'

def objectOf (key : Scalar) (property : Value) : Value :=
  .mapping [(.text "properties", .mapping [(key, property)])]

/-- A document of lists: a list has a head, and a tail that is a list or null. -/
def listDocument : Value :=
  .mapping [(.text "List", .mapping [
    (.text "properties", .mapping [
      (.text "head", .mapping [(.text "type", .sequence [.text "string", .text "integer"])]),
      (.text "tail", .mapping [(.text "$ref", .text "#/List"), (.text "nullable", .bool true)])]),
    (.text "required", .sequence [.text "head"])])]

def holderCall : Call :=
  ⟨some "Holder", objectOf (.text "items") (refTo "#/List"), true, ""⟩

theorem unfold_eq_after_holder :
    ∃ ids r i t j t', outcome ([holderCall].mapM (Call.run listDocument)) {} = (.ok ids, r) ∧
      outcome (Schema.resolve listDocument none (refTo "#/List") true "") r = (.ok i, t) ∧
      outcome (Schema.resolve listDocument none (refTo "#/List") true "") {} = (.ok j, t') ∧
      (t.body? i).isSome ∧ ∀ n, t.unfold n i = t'.unfold n j := by
  have hdocument : listDocument.IsJson := by decide
  have hregular : AllRegular listDocument := by decide
  have hcalls : ∀ call ∈ [holderCall] ++ [], Tame listDocument call.schema.orEmpty := by
    intro call hcall
    obtain rfl := List.mem_singleton.mp hcall
    exact tame_of_allRegular hregular (by decide) (by decide)
  have hschema : Tame listDocument (refTo "#/List").orEmpty :=
    tame_of_allRegular hregular (by decide) (by decide)
  exact ⟨_, _, _, _, _, _, rfl, rfl, rfl,
    unfold_eq_of_histories true "" "" hdocument hcalls hschema rfl rfl rfl rfl⟩

/-- Whether the meaning of a schema depends on a history of calls. -/
def HistoryMatters (document schema : Value) (calls : List Call) : Prop :=
  ∃ ids r i t j t' n, outcome (calls.mapM (Call.run document)) {} = (.ok ids, r) ∧
    outcome (Schema.resolve document none schema false "") r = (.ok i, t) ∧
    outcome (Schema.resolve document none schema false "") {} = (.ok j, t') ∧
    t.unfold n i ≠ t'.unfold n j

theorem keys_of_unfold {n : Nat} (fs gs : List Field) (hi : t.body? i = some (.object fs))
    (hj : t'.body? j = some (.object gs)) (h : t.unfold (n + 1) i = t'.unfold (n + 1) j) :
    ∀ f ∈ fs, ∃ g ∈ gs, g.key = f.key := by
  intro f hf
  rw [Registry.unfold, Registry.unfold, hi, hj] at h
  have hlevel := Level.object.inj (Option.some.inj h)
  have hmem : (f.key, f.required, t.unfold n f.type) ∈
      {x | ∃ g ∈ gs, x = (g.key, g.required, t'.unfold n g.type)} := hlevel ▸ ⟨f, hf, rfl⟩
  obtain ⟨g, hg, hx⟩ := hmem
  exact ⟨g, hg, (Prod.mk.inj hx).1.symm⟩

/-- An extension of nothing whose properties are a list of a pair, written as a mapping of two. The
first key of the two names the property, and is no documentation there. -/
def pairedProperties (key : String) : Value :=
  .mapping [(.text "allOf", .sequence []), (.text "properties", .sequence [
    .mapping [(.text key, .scalar (.int 1)), (.text "", .scalar (.int 2))]])]

def numberedDocument : Value :=
  .mapping [(.text "A", .mapping [(.text "additionalProperties", objectOf (.int 1) .empty)])]

/-- Where properties are a list, or a document is not in JSON, different schemas may have one key,
and the type of a schema depends on which of them came first. -/
theorem history_matters :
    HistoryMatters .empty (pairedProperties "title")
        [⟨none, pairedProperties "description", false, ""⟩] ∧
      HistoryMatters numberedDocument (refTo "#/A")
        [⟨none, objectOf (.text "1") .empty, false, ""⟩] := by
  refine ⟨⟨_, _, _, _, _, _, 1, rfl, rfl, rfl, fun h => ?_⟩,
    ⟨_, _, _, _, _, _, 2, rfl, rfl, rfl, fun h => ?_⟩⟩
  · have hkeys := keys_of_unfold [⟨.text "description", 0, false, .text ""⟩]
      [⟨.text "title", 0, false, .text ""⟩] rfl rfl h
    exact absurd hkeys (by decide)
  · have hinner := Level.map.inj (Option.some.inj h)
    have hkeys := keys_of_unfold [⟨.text "1", 0, false, .text ""⟩]
      [⟨.int 1, 1, false, .text ""⟩] rfl rfl hinner
    exact absurd hkeys (by decide)

end OpenApiClient.Schema

import OpenApiClient.Proofs.BaseTypes

/-! # Types traced to their schemas

What stands behind the type of a schema comes from the first part of its layer, then from the first part
of that part, and so on. A run from the empty registry describes each of them before it has remembered
any shape, so that each has the body of its own layer: memory holds nothing but the references that the
run is in the middle of, and with these the way goes in a circle. The names of models are no part of
this, since the hint for them changes neither the frame of a layer nor the schemas in it. -/
namespace OpenApiClient.Schema

open RegistryM Registry

variable {α β γ : Type} {document schema v : Value} {hint hint' : String} {r s t : Registry}
  {i j : TypeId} {fuel : Nat} {active : List (Value × Nat)}

/-! ## Layers without hints -/

def Layer.unhinted (outer : Layer) : Frame × List Value :=
  (outer.frame, outer.parts.map Part.schema)

theorem map_bind_congr {x : Except Fault α} {f f' : α → Except Fault β} {g : β → γ}
    (h : ∀ a, (f a).map g = (f' a).map g) : (x >>= f).map g = (x >>= f').map g := by
  cases x with
  | error fault => rfl
  | ok a => exact h a

theorem objectLayer_unhinted (schema : Value) (hint hint' : String) :
    (objectLayer schema hint).map Layer.unhinted = (objectLayer schema hint').map Layer.unhinted := by
  rw [objectLayer, objectLayer]
  refine map_bind_congr fun properties => ?_
  dsimp only
  split
  · refine map_bind_congr fun required => map_bind_congr fun members => ?_
    simp [Layer.unhinted, Except.map, pure, Except.pure]
  · refine map_bind_congr fun additional => ?_
    cases additional <;> rfl

private theorem extensionLayer_unhinted (document schema : Value) (hint hint' : String) :
    (extensionLayer document schema hint).map Layer.unhinted =
      (extensionLayer document schema hint').map Layer.unhinted := by
  rw [extensionLayer, extensionLayer]
  refine map_bind_congr fun subs => ?_
  split
  · rfl
  · exact map_bind_congr fun flat => objectLayer_unhinted _ _ _

private theorem choiceLayer_unhinted (alternatives : Value) (hint hint' : String) :
    (choiceLayer alternatives hint).map Layer.unhinted =
      (choiceLayer alternatives hint').map Layer.unhinted := by
  refine map_bind_congr fun subs => ?_
  simp [Layer.unhinted, Except.map, pure, Except.pure]

private theorem plainLayer_unhinted (schema : Value) (hint hint' : String) :
    (plainLayer schema hint).map Layer.unhinted = (plainLayer schema hint').map Layer.unhinted := by
  rw [plainLayer, plainLayer]
  refine map_bind_congr fun ms => map_bind_congr fun enumerated => map_bind_congr fun values => ?_
  cases values with
  | some values => rfl
  | none =>
    refine map_bind_congr fun type => ?_
    split
    · simp [Layer.unhinted, Except.map, pure, Except.pure]
    · exact map_bind_congr fun format => map_bind_congr fun p => rfl
    · rfl
    · rfl
    · rfl
    · exact map_bind_congr fun items => rfl
    · split
      · exact objectLayer_unhinted _ _ _
      · rfl

theorem layer_unhinted (document schema : Value) (hint hint' : String) :
    (layer document schema hint).map Layer.unhinted =
      (layer document schema hint').map Layer.unhinted := by
  rw [layer, layer]
  refine map_bind_congr fun ms => map_bind_congr fun nullable => ?_
  split
  · exact map_bind_congr fun inner => rfl
  · split
    · rfl
    · split
      · exact extensionLayer_unhinted _ _ _ _
      · split
        · exact choiceLayer_unhinted _ _ _
        · exact choiceLayer_unhinted _ _ _
        · exact plainLayer_unhinted _ _ _

/-! ## What is remembered -/

private theorem fills_of_parts {parts : List Part} {ids : List TypeId}
    (h : outcome (parts.mapM (resolvePart (resolveWith document fuel active))) r = (.ok ids, t)) :
    Fills t.recalled parts ids := by
  induction parts generalizing r ids with
  | nil =>
    simp only [mapM_nil_outcome, Prod.mk.injEq, Except.ok.injEq] at h
    exact h.1 ▸ .nil
  | cons part rest ih =>
    obtain ⟨id, s, others, hpart, hrest, rfl⟩ := mapM_cons_ok_iff.mp h
    obtain ⟨ι, hι, hid⟩ := recalls_of_resolveWith (resolvePart_ok hpart).1
    have hkept := parts_extends (resolveWith_growing document fuel active) hrest
    exact .cons ⟨ι, hι, hkept.recalled hid⟩ (ih hrest)

namespace Registry

/-- Whether no type is remembered twice. -/
structure Single (r : Registry) : Prop where
  unique {ι κ : Identity} {id : TypeId} : r.Knows ι id → r.Knows κ id → ι = κ

private theorem WellFormed.knows_lt (hr : r.WellFormed) {ι : Identity} (h : r.Knows ι i) :
    i < r.entries.size := by
  cases ι with
  | reference text => exact hr.refs h
  | shape key => exact hr.anonymous h

/-- A type that is remembered when it is registered was not remembered before. -/
theorem Single.add (h : r.Single) (hr : r.WellFormed) (new : Identity)
    (hcases : ∀ ι id, s.Knows ι id → r.Knows ι id ∨ ι = new ∧ id = r.entries.size) : s.Single where
  unique := by
    intro ι κ id hι hκ
    rcases hcases ι id hι with hold | ⟨rfl, rfl⟩
    · rcases hcases κ id hκ with hold' | ⟨-, rfl⟩
      · exact h.unique hold hold'
      · exact absurd (hr.knows_lt hold) (Nat.lt_irrefl _)
    · rcases hcases κ _ hκ with hold' | ⟨rfl, -⟩
      · exact absurd (hr.knows_lt hold') (Nat.lt_irrefl _)
      · rfl

private theorem Single.of_eq (h : r.Single) (hanonymous : s.anonymous = r.anonymous)
    (hrefs : s.refs = r.refs) : s.Single where
  unique := by
    have hknows : ∀ ι id, s.Knows ι id → r.Knows ι id := by
      rintro (_ | _) id hι
      · rwa [Knows, hrefs] at hι
      · rwa [Knows, hanonymous] at hι
    intro ι κ id hι hκ
    exact h.unique (hknows ι id hι) (hknows κ id hκ)

theorem Single.settle (h : r.Single) (hr : r.WellFormed) {key : String}
    (hanonymous : s.anonymous = (key, r.entries.size) :: r.anonymous) (hrefs : s.refs = r.refs) :
    s.Single :=
  h.add hr (.shape key) fun _ _ => (knows_remembered_iff hanonymous hrefs).mp

private theorem Single.step (hsingle : r.Single) (hr : r.WellFormed) (h : r.Step s) : s.Single := by
  cases h with
  | named text => exact hsingle.of_eq rfl rfl
  | filled hplace hids => exact hsingle.of_eq rfl rfl
  | logged record => exact hsingle.of_eq rfl rfl
  | opened reference hnew =>
    exact hsingle.add hr (.reference reference) fun _ _ => knows_opened_iff.mp
  | settled h hkey hname hids =>
    cases h with
    | unnamed hneeds => exact hsingle.settle hr rfl rfl
    | named text hneeds htext => exact hsingle.settle hr rfl rfl

private theorem Single.steps (hsingle : r.Single) (hr : r.WellFormed) (h : r.Steps s) : s.Single := by
  induction h with
  | refl => exact hsingle
  | tail hsteps hstep ih => exact ih.step (Steps.wellFormed hsteps hr) hstep

private theorem single_empty : ({} : Registry).Single where
  unique {ι _ _} h := by cases ι <;> cases h

private theorem Single.of_made (h : r.Made) : r.Single := single_empty.steps wellFormed_empty h

theorem Single.recalled (h : r.Single) {ι κ : Identity} (hι : r.recalled ι = some i)
    (hκ : r.recalled κ = some i) : ι = κ :=
  h.unique (knows_of_recalled hι) (knows_of_recalled hκ)

end Registry

/-! ## Traces -/

/-- The schema that the type of a schema is described by: the target of a reference, or the schema
itself. -/
inductive Denotes (document v : Value) : Value → Prop
  | reference {text : String} {target : Value} (h : isReference v.orEmpty = .ok true)
      (htext : v.orEmpty.require "$ref" = .ok (.text text))
      (htarget : lookup document text = .ok target) : Denotes document v target
  | shape (h : isReference v.orEmpty = .ok false) : Denotes document v v.orEmpty

/-- Whether a type has the body of the schema that it is described by. The types in it are those of the
parts, each of them for one reference or shape, and the first of them is traced. -/
inductive Described (document : Value) (t : Registry) (traced : Value → TypeId → Prop) (v : Value)
    (i : TypeId) : Prop
  | intro {w : Value} {hint : String} {outer : Layer} {ids : List TypeId}
      {table : Identity → Option TypeId} (hdenotes : Denotes document v w)
      (hlayer : layer document w hint = .ok outer) (hbody : t.body? i = some (outer.frame.fill ids))
      (hids : Fills table outer.parts ids)
      (hsingle : ∀ {ι κ id}, table ι = some id → table κ = some id → ι = κ)
      (hfirst : ∀ p ∈ outer.parts.head?, ∀ j ∈ ids.head?, traced p.schema j)

def Registry.Remembers (r : Registry) (v : Value) (i : TypeId) : Prop :=
  isReference v.orEmpty = .ok true ∧
    ∃ text, v.orEmpty.require "$ref" = .ok (.text text) ∧ r.refs.lookup text = some i

/-- Whether all types that are traced are described by their schemas, but for those that the first
registry remembers. -/
def Traces (document : Value) (r t : Registry) (traced : Value → TypeId → Prop) : Prop :=
  ∀ v i, traced v i → r.Remembers v i ∨ r.entries.size ≤ i ∧ Described document t traced v i

variable {traced traced' : Value → TypeId → Prop}

theorem Denotes.unique {w w' : Value} (h : Denotes document v w) (h' : Denotes document v w') :
    w = w' := by
  cases h with
  | reference h htext htarget =>
    cases h' with
    | reference h' htext' htarget' =>
      cases htext.symm.trans htext'
      exact Except.ok.inj (htarget.symm.trans htarget')
    | shape h' => cases h.symm.trans h'
  | shape h =>
    cases h' with
    | reference h' htext' htarget' => cases h.symm.trans h'
    | shape h' => rfl

theorem Described.mono (h : Described document s traced v i)
    (hbody : ∀ b, s.body? i = some b → t.body? i = some b)
    (htraced : ∀ v i, traced v i → traced' v i) : Described document t traced' v i := by
  obtain ⟨hdenotes, hlayer, hs, hids, hsingle, hfirst⟩ := h
  exact ⟨hdenotes, hlayer, hbody _ hs, hids, hsingle,
    fun p hp j hj => htraced _ _ (hfirst p hp j hj)⟩

/-- What is traced when the parts of a layer are resolved, with the first of them. -/
theorem parts_traced (hresolve : ∀ {v hint i t}, outcome (resolveWith document fuel active v hint) r =
      (.ok i, t) → ∃ traced, traced v i ∧ Traces document r t traced)
    {parts : List Part} {ids : List TypeId}
    (h : outcome (parts.mapM (resolvePart (resolveWith document fuel active))) r = (.ok ids, t)) :
    ∃ traced : Value → TypeId → Prop, (∀ p ∈ parts.head?, ∀ j ∈ ids.head?, traced p.schema j) ∧
      Traces document r t traced := by
  cases parts with
  | nil => exact ⟨fun _ _ => False, by simp, fun _ _ => False.elim⟩
  | cons part rest =>
    obtain ⟨first, s, others, hpart, hrest, rfl⟩ := mapM_cons_ok_iff.mp h
    obtain ⟨traced, hfirst, htraces⟩ := hresolve (resolvePart_ok hpart).1
    refine ⟨traced, by simpa using hfirst, fun v i hi => (htraces v i hi).imp_right ?_⟩
    have hkept := parts_extends (resolveWith_growing document fuel active) hrest
    exact fun ⟨hsize, hdescribed⟩ => ⟨hsize, hdescribed.mono
      (fun b hb => (hkept.body? (lt_of_body? hb)).trans hb) fun _ _ => id⟩

def Adds (traced : Value → TypeId → Prop) (v : Value) (i : TypeId) (w : Value) (j : TypeId) : Prop :=
  traced w j ∨ w = v ∧ j = i

/-- What is traced from the target of a reference leads back to it by the reference alone. -/
theorem Traces.fill {text name : String} {target : Value} {outer : Layer} {ids : List TypeId}
    {e : Entry} (htraces : Traces document (r.opened text name) s traced)
    (hsize : r.entries.size < s.entries.size) (htarget : lookup document text = .ok target)
    (hlayer : layer document target hint = .ok outer) (hbody : e.body = outer.frame.fill ids)
    (hids : Fills s.recalled outer.parts ids) (hsingle : s.Single)
    (hfirst : ∀ p ∈ outer.parts.head?, ∀ j ∈ ids.head?, traced p.schema j)
    (hisRef : isReference v.orEmpty = .ok true)
    (htext : v.orEmpty.require "$ref" = .ok (.text text)) (record : LogRecord) :
    Traces document r ((s.replace r.entries.size e).logged record)
      (Adds traced v r.entries.size) := by
  have hopened : (r.opened text name).entries.size = r.entries.size + 1 := size_push _ _
  have hfilled : ((s.replace r.entries.size e).logged record).body? r.entries.size =
      some (outer.frame.fill ids) := by
    simp [Registry.logged, Registry.replace, Registry.body?, hsize, hbody]
  have hself : ∀ {w}, isReference w.orEmpty = .ok true →
      w.orEmpty.require "$ref" = .ok (.text text) → Described document
        ((s.replace r.entries.size e).logged record) (Adds traced v r.entries.size) w
        r.entries.size := fun hisRef htext =>
    ⟨.reference hisRef htext htarget, hlayer, hfilled, hids, hsingle.recalled,
      fun p hp j hj => .inl (hfirst p hp j hj)⟩
  rintro w j (hj | ⟨rfl, rfl⟩)
  · rcases htraces w j hj with ⟨hisRef', other, hother, hknown⟩ | ⟨hsize', hdescribed⟩
    · -- What is remembered behind the opening is the reference itself, or was so before it.
      by_cases heq : other = text
      · subst heq
        have hlookup : (r.opened other name).refs.lookup other = some r.entries.size := by
          simp [Registry.opened]
        obtain rfl := Option.some.inj (hknown.symm.trans hlookup)
        exact .inr ⟨Nat.le_refl _, hself hisRef' hother⟩
      · refine .inl ⟨hisRef', other, hother, ?_⟩
        rwa [Registry.opened, List.lookup_cons, beq_false_of_ne heq] at hknown
    · have hne : r.entries.size ≠ j := by omega
      refine .inr ⟨by omega, hdescribed.mono (fun b hb => ?_) fun _ _ => .inl⟩
      rw [Registry.body?, Registry.logged, Registry.replace, Array.getElem?_setIfInBounds,
        if_neg hne]
      exact hb
  · exact .inr ⟨Nat.le_refl _, hself hisRef htext⟩

/-- What is traced from a schema that is settled. -/
theorem Traces.settle {key : String} {outer : Layer} {ids : List TypeId} {e : Entry}
    (htraces : Traces document r s traced) (hkept : r.Extends s)
    (hisRef : isReference v.orEmpty = .ok false) (hlayer : layer document v.orEmpty hint = .ok outer)
    (hbody : e.body = outer.frame.fill ids) (hids : Fills s.recalled outer.parts ids)
    (hsingle : s.Single) (hfirst : ∀ p ∈ outer.parts.head?, ∀ j ∈ ids.head?, traced p.schema j)
    (hsettles : Settles v.orEmpty hint' key e s t) :
    Traces document r t (Adds traced v s.entries.size) := by
  obtain ⟨e', hentries, hbody'⟩ : ∃ e', t.entries = s.entries.push e' ∧ e'.body = e.body := by
    cases hsettles with
    | unnamed hneeds => exact ⟨e, rfl, rfl⟩
    | named text hneeds htext => exact ⟨_, rfl, rfl⟩
  rintro w j (hj | ⟨rfl, rfl⟩)
  · refine (htraces w j hj).imp_right fun ⟨hsize, hdescribed⟩ => ⟨hsize, ?_⟩
    exact hdescribed.mono (fun b hb => (body?_push_lt e' hentries (lt_of_body? hb)).trans hb)
      fun _ _ => .inl
  · refine .inr ⟨hkept.size, .shape hisRef, hlayer, ?_, hids, hsingle.recalled,
      fun p hp j hj => .inl (hfirst p hp j hj)⟩
    rw [body?_push_self e' hentries, hbody', hbody]

/-- The type of a schema that is resolved before any shape is remembered is traced. -/
theorem resolveWith_traced (fuel : Nat) (active : List (Value × Nat)) {v : Value} {hint : String}
    {r t : Registry} {i : TypeId} (hr : r.Made) (hnew : r.anonymous = [])
    (h : outcome (resolveWith document fuel active v hint) r = (.ok i, t)) :
    ∃ traced, traced v i ∧ Traces document r t traced := by
  induction fuel generalizing active v hint r i t with
  | zero => simp [resolveWith] at h
  | succ fuel ih =>
    have hstepwise : ∀ active, Stepwise (resolveWith document fuel active) :=
      resolveWith_steps document fuel
    have hgrowing : ∀ active, Growing (resolveWith document fuel active) :=
      resolveWith_growing document fuel
    rcases resolveWith_ok h with ⟨_, hisRef, htext, href⟩ |
      ⟨hisRef, key, -, ⟨hknown, -⟩ | ⟨e, s, -, -, hdescribe, rfl, hsettles⟩⟩
    · obtain ⟨text, rfl, ⟨hknown, rfl⟩ | ⟨target, e, s, hunknown, htarget, hdescribe, rfl, rfl⟩⟩ :=
        resolveRef_ok href
      · refine ⟨fun w j => w = v ∧ j = i, ⟨rfl, rfl⟩, ?_⟩
        rintro _ _ ⟨rfl, rfl⟩
        exact .inl ⟨hisRef, text, htext, hknown⟩
      · have hopened : Made _ := hr.tail (.opened text hunknown)
        obtain ⟨description, outer, ids, -, hlayer, hparts, rfl⟩ := describe_ok_iff.mp hdescribe
        obtain ⟨traced, hfirst, htraces⟩ := parts_traced (ih [] hopened hnew) hparts
        have hmade : s.Made := hopened.trans (parts_steps (hstepwise []) hopened.wellFormed hparts)
        have hsize : r.entries.size < s.entries.size := by
          have hpushed : (r.opened text (r.nameFor (Text.lastField '/' text))).entries.size =
            r.entries.size + 1 := size_push _ _
          have hle := (parts_extends (hgrowing []) hparts).size
          omega
        exact ⟨Adds traced v r.entries.size, .inr ⟨rfl, rfl⟩, htraces.fill hsize htarget hlayer rfl
          (fills_of_parts hparts) (.of_made hmade) hfirst hisRef htext _⟩
    · rw [hnew] at hknown
      cases hknown
    · obtain ⟨description, outer, ids, -, hlayer, hparts, rfl⟩ := describe_ok_iff.mp hdescribe
      obtain ⟨traced, hfirst, htraces⟩ := parts_traced (ih _ hr hnew) hparts
      have hmade : s.Made := hr.trans (parts_steps (hstepwise _) hr.wellFormed hparts)
      exact ⟨Adds traced v s.entries.size, .inr ⟨rfl, rfl⟩,
        htraces.settle (parts_extends (hgrowing _) hparts) hisRef hlayer rfl (fills_of_parts hparts)
          (.of_made hmade) hfirst hsettles⟩

/-- The type of a schema in a fresh registry is traced, and each type that is traced is described by its
schema. -/
theorem resolve_traced {v : Value}
    (h : outcome (Schema.resolve document none v false hint) {} = (.ok i, t)) :
    ∃ traced, traced v.orEmpty i ∧ ∀ w j, traced w j → Described document t traced w j := by
  rw [outcome_resolve, ← resolveWith_nil_eq_freely] at h
  obtain ⟨traced, hi, htraces⟩ := resolveWith_traced _ _ .refl rfl h
  refine ⟨traced, hi, fun w j hj => ?_⟩
  rcases htraces w j hj with ⟨-, text, -, hknown⟩ | ⟨-, hdescribed⟩
  · cases hknown
  · exact hdescribed

end OpenApiClient.Schema

import OpenApiClient.Proofs.CallHistories

/-! # Resolutions within resolutions

A run resolves schemas, and to do so resolves their parts, each with the registry that the parts
before it have left. A task is one such resolution, made by a call or within another resolution.
What a task leaves in the registry is there at the end of the run, unless a resolution that it is
made within replaces it. -/
namespace OpenApiClient.Schema

open RegistryM

variable {document : Value} {r s t : Registry} {id : TypeId}

/-- What is resolved or described: a schema with its hint, the registry that it meets, and what the
resolution of its parts goes by. -/
structure Task where
  fuel : Nat
  active : List (Value × Nat)
  schema : Value
  hint : String
  before : Registry

namespace Task

variable {a b d : Task}

def resolved (document : Value) (a : Task) : Except Fault TypeId × Registry :=
  outcome (resolveWith document a.fuel a.active a.schema a.hint) a.before

def described (document : Value) (a : Task) : Except Fault Entry × Registry :=
  outcome (describe document (resolveWith document a.fuel a.active) a.schema a.hint) a.before

/-- Whether a schema is resolved by its shape. -/
def IsShape (a : Task) (key : String) : Prop :=
  isReference a.schema.orEmpty = .ok false ∧ structuralKey a.schema.orEmpty = .ok key

def IsReference (a : Task) (text : String) : Prop :=
  isReference a.schema.orEmpty = .ok true ∧ a.schema.orEmpty.require "$ref" = .ok (.text text)

/-- What is described for a resolution: a shape, or the target of a reference, that the registry
does not know. -/
inductive Opens (document : Value) : Task → Task → Prop
  | shape {fuel : Nat} {active : List (Value × Nat)} {schema : Value} {hint key : String} {r : Registry}
      (hshape : IsShape ⟨fuel + 1, active, schema, hint, r⟩ key)
      (hnew : r.anonymous.lookup key = none) (hactive : (schema.orEmpty, r.entries.size) ∉ active) :
      Opens document ⟨fuel + 1, active, schema, hint, r⟩
        ⟨fuel, (schema.orEmpty, r.entries.size) :: active, schema.orEmpty, hint, r⟩
  | target {fuel : Nat} {active : List (Value × Nat)} {schema target : Value} {hint text name : String}
      {r : Registry} (hreference : IsReference ⟨fuel + 1, active, schema, hint, r⟩ text)
      (hnew : r.refs.lookup text = none) (htarget : lookup document text = .ok target)
      (hname : name = r.nameFor (Text.lastField '/' text)) :
      Opens document ⟨fuel + 1, active, schema, hint, r⟩
        ⟨fuel, [], target, name, r.opened text name⟩

/-- What is resolved for a description: a part of the layer, after the parts before it. -/
def Takes (document : Value) (a b : Task) : Prop :=
  ∃ description outer before p after ids s, a.schema.get "description" = .ok description ∧
    layer document a.schema a.hint = .ok outer ∧ outer.parts = before ++ p :: after ∧
    outcome (before.mapM (resolvePart (resolveWith document a.fuel a.active))) a.before =
      (.ok ids, s) ∧
    b = ⟨a.fuel, a.active, p.schema, p.hint, s⟩

/-- What is resolved within a resolution, directly. -/
def Makes (document : Value) (a b : Task) : Prop :=
  ∃ d, a.Opens document d ∧ d.Takes document b

end Task

/-- What the first of two steps leaves is there after both, if the second one adds to it. -/
theorem bind_extends {α β : Type} {m : RegistryM α} {f : α → RegistryM β}
    (h : ∀ a s, outcome m r = (.ok a, s) → s.Extends (outcome (f a) s).2) :
    (outcome m r).2.Extends (outcome (m >>= f) r).2 := by
  rw [outcome_bind]
  cases hm : outcome m r with
  | mk x s =>
    cases x with
    | ok a => exact h a s hm
    | error fault => exact .refl s

private theorem resolvePart_state (resolve : Resolver) (p : Part) (r : Registry) :
    (outcome (resolvePart resolve p) r).2 = (outcome (resolve p.schema p.hint) r).2 := by
  rw [resolvePart, outcome_bind]
  cases outcome (resolve p.schema p.hint) r with
  | mk x s =>
    cases x with
    | error fault => rfl
    | ok id =>
      cases p.described with
      | false => rfl
      | true =>
        simp only [if_true, outcome_bind, outcome_lift]
        cases p.schema.orEmpty.get "description" <;> rfl

private theorem describe_state {resolve : Resolver} {schema description : Value} {hint : String}
    {outer : Layer} (hdescription : schema.get "description" = .ok description)
    (houter : layer document schema hint = .ok outer) (r : Registry) :
    (outcome (describe document resolve schema hint) r).2 =
      (outcome (outer.parts.mapM (resolvePart resolve)) r).2 := by
  rw [describe, hdescription, houter]
  simp only [outcome_bind, outcome_lift]
  cases outcome (outer.parts.mapM (resolvePart resolve)) r with
  | mk x s => cases x <;> rfl

namespace Task

variable {a b d : Task}

theorem Takes.extends (h : a.Takes document b) :
    (b.resolved document).2.Extends (a.described document).2 := by
  obtain ⟨description, outer, before, p, after, ids, s, hdescription, houter, hsplit, hbefore,
    rfl⟩ :=
    h
  have hgrowing : Growing (resolveWith document a.fuel a.active) := resolveWith_growing document _ _
  -- What comes behind the part can only add to the registry.
  have hrest : (outcome (resolvePart (resolveWith document a.fuel a.active) p) s).2.Extends
      (outcome ((p :: after).mapM (resolvePart (resolveWith document a.fuel a.active))) s).2 := by
    rw [List.mapM_cons]
    refine bind_extends fun id t _ => ?_
    exact (parts_extends hgrowing rfl).trans (bind_extends fun _ _ _ => .refl _)
  rw [described, describe_state hdescription houter, hsplit, List.mapM_append,
    outcome_bind_of_ok hbefore, resolved, ← resolvePart_state]
  exact hrest.trans (bind_extends fun _ _ _ => .refl _)

/-- What a resolution adds to its description: the type of its shape, or nothing to remember. -/
def Closes (a : Task) (s t : Registry) : Prop :=
  t.refs = s.refs ∧ (t.anonymous = s.anonymous ∨
    ∃ key id, a.IsShape key ∧ t.anonymous = (key, id) :: s.anonymous)

variable {fuel : Nat} {active : List (Value × Nat)} {schema : Value} {hint : String}

private theorem closes_of_shape {key : String}
    (hshape : IsShape ⟨fuel + 1, active, schema, hint, r⟩ key)
    (hnew : r.anonymous.lookup key = none) (hactive : (schema.orEmpty, r.entries.size) ∉ active) :
    Closes ⟨fuel + 1, active, schema, hint, r⟩
      (described document ⟨fuel, (schema.orEmpty, r.entries.size) :: active, schema.orEmpty, hint, r⟩).2
      (resolved document ⟨fuel + 1, active, schema, hint, r⟩).2 := by
  have hisRef : isReference schema.orEmpty = .ok false := hshape.1
  have hkey : structuralKey schema.orEmpty = .ok key := hshape.2
  -- Of the ways in which a resolution ends, those through the description are left.
  cases hd : described document ⟨fuel, (schema.orEmpty, r.entries.size) :: active, schema.orEmpty, hint, r⟩ with
  | mk x s =>
  cases ha : resolved document ⟨fuel + 1, active, schema, hint, r⟩ with
  | mk y t =>
  cases y with
  | ok id =>
    rcases resolveWith_ok ha with ⟨_, htrue, -⟩ |
      ⟨-, other, hother, ⟨hknown, -⟩ | ⟨e, u, -, -, hdescribe, -, hsettles⟩⟩
    · simp [hisRef] at htrue
    · obtain rfl := Except.ok.inj (hkey.symm.trans hother)
      simp [hnew] at hknown
    · obtain rfl := Except.ok.inj (hkey.symm.trans hother)
      obtain ⟨-, rfl⟩ := Prod.mk.inj (hd.symm.trans hdescribe)
      cases hsettles with
      | unnamed hneeds => exact ⟨rfl, .inr ⟨key, _, hshape, rfl⟩⟩
      | named text hneeds htext => exact ⟨rfl, .inr ⟨key, _, hshape, rfl⟩⟩
  | error fault =>
    rcases resolveWith_error ha with ⟨-, hfault⟩ | ⟨_, htrue, -⟩ |
      ⟨-, other, -, -, ⟨hmem, -⟩ | ⟨-, hdescribe⟩ | ⟨e, -, hdescribe, -⟩⟩
    · simp [hisRef, hkey] at hfault
    · simp [hisRef] at htrue
    · exact absurd hmem hactive
    · obtain ⟨-, rfl⟩ := Prod.mk.inj (hd.symm.trans hdescribe)
      exact ⟨rfl, .inl rfl⟩
    · obtain ⟨-, rfl⟩ := Prod.mk.inj (hd.symm.trans hdescribe)
      exact ⟨rfl, .inl rfl⟩

private theorem closes_of_target {target : Value} {text : String}
    (hreference : IsReference ⟨fuel + 1, active, schema, hint, r⟩ text)
    (hnew : r.refs.lookup text = none) (htarget : lookup document text = .ok target) :
    Closes ⟨fuel + 1, active, schema, hint, r⟩
      (described document ⟨fuel, [], target, r.nameFor (Text.lastField '/' text),
        r.opened text (r.nameFor (Text.lastField '/' text))⟩).2
      (resolved document ⟨fuel + 1, active, schema, hint, r⟩).2 := by
  have hisRef : isReference schema.orEmpty = .ok true := hreference.1
  have htext : schema.orEmpty.require "$ref" = .ok (.text text) := hreference.2
  cases hd : described document ⟨fuel, [], target, r.nameFor (Text.lastField '/' text),
    r.opened text (r.nameFor (Text.lastField '/' text))⟩ with
  | mk x s =>
  cases ha : resolved document ⟨fuel + 1, active, schema, hint, r⟩ with
  | mk y t =>
  cases y with
  | ok id =>
    rcases resolveWith_ok ha with ⟨_, -, hother, href⟩ | ⟨hfalse, -⟩
    · obtain rfl := Except.ok.inj (htext.symm.trans hother)
      obtain ⟨_, ⟨⟩, ⟨hknown, -⟩ | ⟨other, e, u, -, hlookup, hdescribe, -, rfl⟩⟩ :=
        resolveRef_ok href
      · simp [hnew] at hknown
      · obtain rfl := Except.ok.inj (htarget.symm.trans hlookup)
        obtain ⟨-, rfl⟩ := Prod.mk.inj (hd.symm.trans hdescribe)
        exact ⟨rfl, .inl rfl⟩
    · simp [hisRef] at hfalse
  | error fault =>
    rcases resolveWith_error ha with ⟨-, hfault⟩ | ⟨_, -, hother, href⟩ | ⟨hfalse, -⟩
    · simp [hisRef, htext] at hfault
    · obtain rfl := Except.ok.inj (htext.symm.trans hother)
      rcases resolveRef_error href with ⟨-, hfault | ⟨_, ⟨⟩, hfault⟩⟩ |
        ⟨_, other, ⟨⟩, -, hlookup, hdescribe⟩
      · simp [Value.asText] at hfault
      · simp [htarget] at hfault
      · obtain rfl := Except.ok.inj (htarget.symm.trans hlookup)
        obtain ⟨-, rfl⟩ := Prod.mk.inj (hd.symm.trans hdescribe)
        exact ⟨rfl, .inl rfl⟩
    · simp [hisRef] at hfalse

private theorem Opens.closes (h : a.Opens document d) :
    a.Closes (d.described document).2 (a.resolved document).2 := by
  cases h with
  | shape hshape hnew hactive => exact closes_of_shape hshape hnew hactive
  | target hreference hnew htarget hname => exact hname ▸ closes_of_target hreference hnew htarget

end Task

/-- What a call resolves, with the resolutions that it is resolved within, innermost first. -/
inductive Call.Makes (document : Value) (r : Registry) (call : Call) : List Task → Task → Prop
  | itself (h : call.preferred.getD "" = "") : Makes document r call []
      ⟨resolveDepth document call.schema.orEmpty, [], call.schema.orEmpty, call.hint, r⟩
  | part {text : String} {b : Task} (hpreferred : call.preferred = some text) (htext : text ≠ "")
      (h : Task.Takes document ⟨resolveDepth document call.schema.orEmpty, [], call.schema.orEmpty,
        r.nameFor text, r.named (r.nameFor text)⟩ b) : Makes document r call [] b
  | within {outer : List Task} {a b : Task} (h : Makes document r call outer a)
      (hmakes : a.Makes document b) : Makes document r call (a :: outer) b

/-- What is resolved in the course of calls, with the resolutions that it is resolved within. -/
def Task.InRun (document : Value) (calls : List Call) (outer : List Task) (a : Task) : Prop :=
  ∃ before call after, calls = before ++ call :: after ∧
    call.Makes document (Registry.history document before) outer a

variable {outer : List Task} {a b : Task} {call : Call} {calls : List Call}

theorem Task.InRun.within (h : a.InRun document calls outer) (hmakes : a.Makes document b) :
    b.InRun document calls (a :: outer) := by
  obtain ⟨before, call, after, rfl, ha⟩ := h
  exact ⟨before, call, after, rfl, ha.within hmakes⟩

/-- What a resolution leaves is there when the call ends, if filling in types keeps it, and the
resolutions around it do when they end. -/
theorem Call.Makes.kept {P : Registry → Prop} (hgrown : ∀ {s t : Registry}, s.Extends t → P s → P t)
    (hfilled : ∀ {s : Registry} (id : TypeId) (e : Entry), P s → P (s.replace id e))
    (h : call.Makes document r outer a)
    (hcloses : ∀ c ∈ outer, ∀ {s t : Registry}, c.Closes s t → P s → P t)
    (ha : P (a.resolved document).2) : P (r.afterCall document call) := by
  -- From the call inwards: what a resolution leaves is kept until the one around it ends, and from
  -- there by induction.
  induction h with
  | itself h =>
    rw [Registry.afterCall, Call.run, resolve_anonymous document h]
    exact hgrown (bind_extends fun id s _ => wrap_extends call.nullable id s) ha
  | part hpreferred htext h =>
    rename_i text b
    have hdescribed := hgrown h.extends ha
    rw [Registry.afterCall, Call.run, hpreferred, resolve_named document htext]
    refine hgrown (bind_extends fun id s _ => wrap_extends call.nullable id s) ?_
    rw [outcome_claim_register]
    rw [Task.described] at hdescribed
    split
    · rename_i hbody
      rw [hbody] at hdescribed
      exact hfilled _ _ hdescribed
    · rename_i hbody
      rw [hbody] at hdescribed
      exact hdescribed
  | within h hmakes ih =>
    obtain ⟨d, hopens, htakes⟩ := hmakes
    obtain ⟨hclose, hcloses⟩ := List.forall_mem_cons.mp hcloses
    exact ih hcloses (hclose hopens.closes (hgrown htakes.extends ha))

/-- What a resolution leaves is there at the end of the run. -/
theorem Task.InRun.kept {P : Registry → Prop} (hgrown : ∀ {s t : Registry}, s.Extends t → P s → P t)
    (hfilled : ∀ {s : Registry} (id : TypeId) (e : Entry), P s → P (s.replace id e))
    (h : a.InRun document calls outer)
    (hcloses : ∀ c ∈ outer, ∀ {s t : Registry}, c.Closes s t → P s → P t)
    (ha : P (a.resolved document).2) : P (Registry.history document calls) := by
  obtain ⟨before, call, after, rfl, hmakes⟩ := h
  rw [Registry.history_append]
  exact Registry.afterCalls_induct (hmakes.kept hgrown hfilled hcloses ha)
    (fun call => hgrown (Registry.afterCall_extends document _ call)) after

end OpenApiClient.Schema

import OpenApiClient.Proofs.SoundResolution
import Mathlib.Data.Set.Basic

/-! # What a type means

A type is unfolded to a depth, without its ids, its names and its descriptions. Two sound registries
unfold what they know of alike schemas alike: the bodies are those of alike layers, and the types in
them are again known of alike schemas. -/
namespace OpenApiClient.Schema

open RegistryM

variable {document v w : Value} {r s : Registry} {id i j : TypeId} {ι κ : Identity}

/-- A type with something in the place of the types in it. Properties have no order. -/
inductive Level (α : Type)
  | primitive (p : Primitive)
  | array (item : α)
  | map (item : α)
  | object (fields : Set (Scalar × Bool × α))
  | enumeration (values : List String)
  | union (members : List α)
  | optional (item : α)
  | synonym (item : α)

/-- What there is to see of a type to a depth. -/
def Unfolding : Nat → Type
  | 0 => Unit
  | n + 1 => Option (Level (Unfolding n))

def Body.level {α : Type} (see : TypeId → α) : Body → Level α
  | .primitive p => .primitive p
  | .array item => .array (see item)
  | .map item => .map (see item)
  | .object fields => .object {x | ∃ f ∈ fields, x = (f.key, f.required, see f.type)}
  | .enumeration values => .enumeration values
  | .union members => .union (members.map see)
  | .optional item => .optional (see item)
  | .synonym item => .synonym (see item)

/-- A type of a registry to a depth. -/
def Registry.unfold (r : Registry) : (n : Nat) → TypeId → Unfolding n
  | 0, _ => ()
  | n + 1, id => (r.body? id).map (Body.level (r.unfold n))

inductive BodiesAgree (R : TypeId → TypeId → Prop) : Body → Body → Prop
  | primitive (p : Primitive) : BodiesAgree R (.primitive p) (.primitive p)
  | array {i j : TypeId} (h : R i j) : BodiesAgree R (.array i) (.array j)
  | map {i j : TypeId} (h : R i j) : BodiesAgree R (.map i) (.map j)
  | object {fs gs : List Field}
      (left : ∀ f ∈ fs, ∃ g ∈ gs, g.key = f.key ∧ g.required = f.required ∧ R f.type g.type)
      (right : ∀ g ∈ gs, ∃ f ∈ fs, f.key = g.key ∧ f.required = g.required ∧ R f.type g.type) :
      BodiesAgree R (.object fs) (.object gs)
  | enumeration (values : List String) : BodiesAgree R (.enumeration values) (.enumeration values)
  | union {is js : List TypeId} (h : List.Forall₂ R is js) : BodiesAgree R (.union is) (.union js)
  | optional {i j : TypeId} (h : R i j) : BodiesAgree R (.optional i) (.optional j)
  | synonym {i j : TypeId} (h : R i j) : BodiesAgree R (.synonym i) (.synonym j)

private theorem BodiesAgree.level_eq {R : TypeId → TypeId → Prop} {b c : Body} {α : Type}
    {see see' : TypeId → α} (h : BodiesAgree R b c) (hsee : ∀ i j, R i j → see i = see' j) :
    b.level see = c.level see' := by
  cases h with
  | primitive p => rfl
  | array h => exact congrArg Level.array (hsee _ _ h)
  | map h => exact congrArg Level.map (hsee _ _ h)
  | object left right =>
    refine congrArg Level.object (Set.ext fun x => ⟨?_, ?_⟩)
    · rintro ⟨f, hf, rfl⟩
      obtain ⟨g, hg, hkey, hrequired, htype⟩ := left f hf
      exact ⟨g, hg, by rw [hkey, hrequired, hsee _ _ htype]⟩
    · rintro ⟨g, hg, rfl⟩
      obtain ⟨f, hf, hkey, hrequired, htype⟩ := right g hg
      exact ⟨f, hf, by rw [hkey, hrequired, hsee _ _ htype]⟩
  | enumeration values => rfl
  | union h =>
    refine congrArg Level.union ?_
    induction h with
    | nil => rfl
    | cons hij _ ih => rw [List.map_cons, List.map_cons, hsee _ _ hij, ih]
  | optional h => exact congrArg Level.optional (hsee _ _ h)
  | synonym h => exact congrArg Level.synonym (hsee _ _ h)

/-- Related lists stay related without repetitions, if related ids repeat together. -/
theorem distinctIds_forall₂ {R : TypeId → TypeId → Prop} {is js : List TypeId}
    (hR : ∀ {i j i' j'}, R i j → R i' j' → (i = i' ↔ j = j')) (h : List.Forall₂ R is js) :
    List.Forall₂ R (distinctIds is) (distinctIds js) := by
  have hmem : ∀ {ms ns : List TypeId} {i j}, List.Forall₂ R ms ns → R i j → (i ∈ ms ↔ j ∈ ns) := by
    intro ms ns i j hms hij
    induction hms with
    | nil => simp
    | cons hmn _ ih => rw [List.mem_cons, List.mem_cons, ih, hR hij hmn]
  have hfold : ∀ {ms ns : List TypeId}, List.Forall₂ R ms ns → List.Forall₂ R
      (is.foldl (fun members id => if members.contains id then members else members ++ [id]) ms)
      (js.foldl (fun members id => if members.contains id then members else members ++ [id])
        ns) := by
    induction h with
    | nil => exact id
    | @cons i j is js hij _ ih =>
      intro ms ns hms
      rw [List.foldl_cons, List.foldl_cons]
      refine ih ?_
      have hcontains : ms.contains i = ns.contains j := by
        rw [Bool.eq_iff_iff, List.contains_iff_mem, List.contains_iff_mem, hmem hms hij]
      rw [hcontains]
      split
      · exact hms
      · exact List.rel_append hms (.cons hij .nil)
  exact hfold .nil

/-- Types that two tables give for the same repeat together, if no table gives one type twice. -/
theorem repeat_iff_of_tables {table table' : Identity → Option TypeId}
    (hsingle : ∀ {ι κ id}, table ι = some id → table κ = some id → ι = κ)
    (hsingle' : ∀ {ι κ id}, table' ι = some id → table' κ = some id → ι = κ) {i j i' j' : TypeId}
    (h : ∃ ι, table ι = some i ∧ table' ι = some j)
    (h' : ∃ ι, table ι = some i' ∧ table' ι = some j') : i = i' ↔ j = j' := by
  obtain ⟨ι, hi, hj⟩ := h
  obtain ⟨κ, hi', hj'⟩ := h'
  constructor
  · rintro rfl
    obtain rfl := hsingle hi hi'
    exact Option.some.inj (hj.symm.trans hj')
  · rintro rfl
    obtain rfl := hsingle' hj hj'
    exact Option.some.inj (hi.symm.trans hi')

/-- Whether types were registered for alike schemas. -/
def Agree (document : Value) (r s : Registry) (i j : TypeId) : Prop :=
  ∃ v w ι κ, Tame document v ∧ Tame document w ∧ Alike v w ∧ identityOf v = .ok ι ∧
    identityOf w = .ok κ ∧ r.Knows ι i ∧ s.Knows κ j

theorem reference_alike (hv : Tame document v) (hw : Tame document w) (h : Alike v w)
    (hisRef : isReference v = .ok true) {text : String}
    (htext : v.require "$ref" = .ok (.text text)) :
    isReference w = .ok true ∧ w.require "$ref" = .ok (.text text) := by
  obtain ⟨-, target, htarget, hform⟩ := require_alike hv.json hw.json h "$ref" (by decide) htext
  obtain rfl := eq_of_form_scalar hform
  obtain ⟨ms, rfl, -⟩ := require_ok_iff.mp htext
  obtain ⟨ns, rfl, hns⟩ := h.mapping hv.json
  exact ⟨isReference_alike hv.json hv.self hns ▸ hisRef, htarget⟩

/-- Alike schemas are references of one text, or shapes. -/
theorem identity_alike (hv : Tame document v) (hw : Tame document w) (h : Alike v w)
    (hι : identityOf v = .ok ι) (hκ : identityOf w = .ok κ) :
    (∃ text, ι = .reference text ∧ κ = .reference text) ∨
      ∃ key key', ι = .shape key ∧ structuralKey v = .ok key ∧ κ = .shape key' ∧
        structuralKey w = .ok key' := by
  rcases identityOf_ok_iff.mp hι with ⟨hisRef, text, htext, rfl⟩ | ⟨hisRef, key, hkey, rfl⟩
  · obtain ⟨hisRef', htext'⟩ := reference_alike hv hw h hisRef htext
    have hκ' : identityOf w = .ok (.reference text) :=
      identityOf_ok_iff.mpr (.inl ⟨hisRef', text, htext', rfl⟩)
    exact .inl ⟨text, rfl, Except.ok.inj (hκ.symm.trans hκ')⟩
  · rcases identityOf_ok_iff.mp hκ with ⟨hisRef', text, htext, -⟩ | ⟨-, key', hkey', rfl⟩
    · obtain ⟨hisRef'', -⟩ := reference_alike hw hv h.symm hisRef' htext
      cases hisRef.symm.trans hisRef''
    · exact .inr ⟨key, key', rfl, hkey, rfl, hkey'⟩

/-- A schema that a registry knows has the type of its target, or that of a schema of its form. The
types in the latter stand before it. -/
theorem Sound.depicted (h : Sound document r []) (hv : Tame document v) (hι : identityOf v = .ok ι)
    (hid : r.Knows ι id) :
    ∃ w limit, Tame document w ∧ Depicts document r limit w id ∧
      ((∃ text, ι = .reference text ∧ lookup document text = .ok w) ∨
        (∃ key, ι = .shape key) ∧ limit = id ∧ form false v = form false w) := by
  rcases identityOf_ok_iff.mp hι with ⟨-, text, -, rfl⟩ | ⟨-, key, hkey, rfl⟩
  · rcases h.reference hid with hopen | ⟨target, htarget, htame, hdepicts⟩
    · simp at hopen
    · exact ⟨target, _, htame, hdepicts, .inl ⟨text, rfl, htarget⟩⟩
  · obtain ⟨w, htame, hw, hdepicts⟩ := h.shape hkey hid
    rcases identityOf_ok_iff.mp hw with ⟨-, text, -, hshape⟩ | ⟨-, key', hkey', hshape⟩
    · cases hshape
    · obtain rfl := Identity.shape.inj hshape
      exact ⟨w, _, htame, hdepicts, .inr ⟨⟨key, rfl⟩, rfl, form_of_structuralKey hv.json htame.json
        (hkey.trans hkey'.symm)⟩⟩

theorem Sound.mapping (h : Sound document r []) (hv : Tame document v) (hι : identityOf v = .ok ι)
    (hid : r.Knows ι id) : ∃ ms, v = .mapping ms := by
  rcases identityOf_ok_iff.mp hι with ⟨-, text, htext, -⟩ | ⟨-, key, -, rfl⟩
  · obtain ⟨ms, rfl, -⟩ := require_ok_iff.mp htext
    exact ⟨ms, rfl⟩
  · obtain ⟨w, limit, hw, ⟨hlayer, -, -, -⟩, ⟨text, htext, -⟩ | ⟨-, -, hform⟩⟩ :=
      h.depicted hv hι hid
    · cases htext
    · obtain ⟨ms, rfl, -⟩ := isLayer_of_ok hlayer
      exact mapping_of_form hw.json hform.symm

/-- Schemas of one form are registered for the same. -/
theorem identity_of_form (hv : Tame document v) (hw : Tame document w)
    (h : form false v = form false w) (hι : identityOf v = .ok ι) (hκ : identityOf w = .ok κ) :
    ι = κ := by
  rcases identity_alike hv hw (.same h) hι hκ with ⟨text, rfl, rfl⟩ |
    ⟨key, key', rfl, hkey, rfl, hkey'⟩
  · rfl
  · rw [structuralKey_of_form h, hkey', Except.ok.injEq] at hkey
    rw [hkey]

section

variable {table table' : Identity → Option TypeId} {is js : List TypeId} {p q : Part}

def Gives (table : Identity → Option TypeId) (p : Part) (i : TypeId) : Prop :=
  ∃ ι, identityOf p.schema.orEmpty = .ok ι ∧ table ι = some i

def TamePart (document : Value) (p : Part) : Prop :=
  p.schema.IsJson ∧ Tame document p.schema.orEmpty

variable (htable : ∀ {ι i}, table ι = some i → r.Knows ι i)
  (htable' : ∀ {ι i}, table' ι = some i → s.Knows ι i)

include htable htable'

theorem agree_of_parts (hp : TamePart document p) (hq : TamePart document q)
    (h : Alike p.schema q.schema) (hi : Gives table p i) (hj : Gives table' q j) :
    Agree document r s i j := by
  obtain ⟨ι, hι, hi⟩ := hi
  obtain ⟨κ, hκ, hj⟩ := hj
  exact ⟨_, _, ι, κ, hp.2, hq.2, h.orEmpty hp.1, hι, hκ, htable hi, htable' hj⟩

omit htable htable' in
theorem forall₂_of_parts {R : TypeId → TypeId → Prop} {S : Part → Part → Prop} {ps qs : List Part}
    (h : List.Forall₂ S ps qs) (hR : ∀ p ∈ ps, ∀ q ∈ qs, S p q → ∀ {i j}, Gives table p i →
      Gives table' q j → R i j) (his : Fills table ps is) (hjs : Fills table' qs js) :
    List.Forall₂ R is js := by
  induction h generalizing is js with
  | nil =>
    cases his
    cases hjs
    exact .nil
  | cons hpq _ ih =>
    obtain ⟨i, is, hi, hrest, rfl⟩ := List.forall₂_cons_left_iff.mp his
    obtain ⟨j, js, hj, hrest', rfl⟩ := List.forall₂_cons_left_iff.mp hjs
    exact .cons (hR _ List.mem_cons_self _ List.mem_cons_self hpq hi hj)
      (ih (fun p hp q hq => hR p (List.mem_cons_of_mem _ hp) q (List.mem_cons_of_mem _ hq)) hrest
        hrest')

structure IsField (table : Identity → Option TypeId) (required : List Scalar) (m : Scalar × Value)
    (f : Field) : Prop where
  key : f.key = m.1
  required : f.required = required.any (·.sameKey m.1)
  type : ∃ ι, identityOf m.2.orEmpty = .ok ι ∧ table ι = some f.type

omit htable htable' in
theorem fieldsLayer_fill {required : List Scalar} {ps : Members} {hint : String}
    (h : Fills table (fieldsLayer required ps hint).parts is) :
    ∃ fs, (fieldsLayer required ps hint).frame.fill is = .object fs ∧
      List.Forall₂ (IsField table required) ps fs := by
  refine ⟨_, rfl, ?_⟩
  rw [fieldsLayer, Fills, List.forall₂_map_left_iff] at h
  induction h with
  | nil => exact .nil
  | cons hm _ ih => exact .cons ⟨rfl, rfl, hm⟩ ih

/-- The types of alike choices are those of alike schemas. -/
theorem choice_agree (hr : Sound document r []) (hs : Sound document s []) {ps qs : List Part}
    (h : List.Forall₂ (fun p q => form false p.schema = form false q.schema) ps qs)
    (hparts : ∀ p ∈ ps, TamePart document p) (hparts' : ∀ q ∈ qs, TamePart document q)
    (his : Fills table ps is) (hjs : Fills table' qs js) :
    BodiesAgree (Agree document r s) (Frame.choice.fill is) (Frame.choice.fill js) := by
  have hids : List.Forall₂ (fun i j => (∃ ι, table ι = some i ∧ table' ι = some j) ∧
      Agree document r s i j) is js := by
    refine forall₂_of_parts h (fun p hp q hq hpq i j hi hj => ⟨?_, agree_of_parts htable htable'
      (hparts p hp) (hparts' q hq) (.same hpq) hi hj⟩) his hjs
    obtain ⟨ι, hι, hi⟩ := hi
    obtain ⟨κ, hκ, hj⟩ := hj
    obtain rfl := identity_of_form (hparts p hp).2 (hparts' q hq).2
      (form_orEmpty (hparts p hp).1 hpq) hι hκ
    exact ⟨ι, hi, hj⟩
  -- Each type is that of one identity, so that types repeat in both choices at once.
  have hdistinct := distinctIds_forall₂ (fun {i j i' j'} hij hij' => ?_) hids
  · rw [Frame.fill, Frame.fill]
    generalize distinctIds is = ms, distinctIds js = ns at hdistinct ⊢
    cases hdistinct with
    | nil => exact .union .nil
    | cons hfirst hrest =>
      cases hrest with
      | nil => exact .synonym hfirst.2
      | cons hsecond hrest =>
        exact .union (.cons hfirst.2 (.cons hsecond.2 (hrest.imp fun _ _ hij => hij.2)))
  · exact repeat_iff_of_tables (fun hι hκ => hr.single (htable hι) (htable hκ))
      (fun hι hκ => hs.single (htable' hι) (htable' hκ)) hij.1 hij'.1

/-- The fields of alike objects have types of alike schemas. -/
theorem fields_agree {required : List Scalar} {ps qs : Members} {hint hint' : String}
    (h : FieldsAlike ps qs)
    (hparts : ∀ p ∈ (fieldsLayer required ps hint).parts, TamePart document p)
    (hparts' : ∀ q ∈ (fieldsLayer required qs hint').parts, TamePart document q)
    (his : Fills table (fieldsLayer required ps hint).parts is)
    (hjs : Fills table' (fieldsLayer required qs hint').parts js) :
    BodiesAgree (Agree document r s) ((fieldsLayer required ps hint).frame.fill is)
      ((fieldsLayer required qs hint').frame.fill js) := by
  obtain ⟨fs, hfs, hleft⟩ := fieldsLayer_fill his
  obtain ⟨gs, hgs, hright⟩ := fieldsLayer_fill hjs
  rw [hfs, hgs]
  have hfields : ∀ m ∈ ps, ∀ n ∈ qs, n.1 = m.1 → form false m.2 = form false n.2 → ∀ {f g},
      IsField table required m f → IsField table' required n g →
      g.key = f.key ∧ g.required = f.required ∧ Agree document r s f.type g.type := by
    intro m hm n hn hkey hform f g hf hg
    refine ⟨by rw [hf.key, hg.key, hkey], by rw [hf.required, hg.required, hkey], ?_⟩
    have hp := hparts ⟨m.2, hint ++ " " ++ m.1.display, true⟩ (List.mem_map_of_mem hm)
    have hq := hparts' ⟨n.2, hint' ++ " " ++ n.1.display, true⟩ (List.mem_map_of_mem hn)
    exact agree_of_parts htable htable' hp hq (.same hform) hf.type hg.type
  refine .object (fun f hf => ?_) fun g hg => ?_
  · obtain ⟨m, hm, hmf⟩ := (exists_of_forall₂ hleft).2 f hf
    obtain ⟨n, hn, hkey, hform⟩ := h.mem hm
    obtain ⟨g, hg, hng⟩ := (exists_of_forall₂ hright).1 n hn
    exact ⟨g, hg, hfields m hm n hn hkey hform hmf hng⟩
  · obtain ⟨n, hn, hng⟩ := (exists_of_forall₂ hright).2 g hg
    obtain ⟨m, hm, hkey, hform⟩ := h.symm.mem hn
    obtain ⟨f, hf, hmf⟩ := (exists_of_forall₂ hleft).1 m hm
    obtain ⟨hkeys, hrequired, htypes⟩ := hfields m hm n hn hkey.symm hform.symm hmf hng
    exact ⟨f, hf, hkeys.symm, hrequired.symm, htypes⟩

/-- The types in the bodies of alike layers were registered for alike schemas. -/
theorem fill_agree (hr : Sound document r []) (hs : Sound document s []) {a b : Layer}
    (h : LayersAlike a b) (hparts : ∀ p ∈ a.parts, TamePart document p)
    (hparts' : ∀ q ∈ b.parts, TamePart document q) (his : Fills table a.parts is)
    (hjs : Fills table' b.parts js) :
    BodiesAgree (Agree document r s) (a.frame.fill is) (b.frame.fill js) := by
  cases h with
  | primitive p => exact .primitive p
  | enumeration values => exact .enumeration values
  | @single frame p q hframe h =>
    obtain ⟨i, _, hi, hnil, rfl⟩ := List.forall₂_cons_left_iff.mp his
    obtain ⟨j, _, hj, hnil', rfl⟩ := List.forall₂_cons_left_iff.mp hjs
    cases hnil
    cases hnil'
    have hij : Agree document r s i j := agree_of_parts htable htable'
      (hparts p List.mem_cons_self) (hparts' q List.mem_cons_self) h hi hj
    cases frame with
    | array => exact .array hij
    | map => exact .map hij
    | optional => exact .optional hij
    | synonym => exact .synonym hij
    | primitive p => cases hframe
    | object properties => cases hframe
    | enumeration values => cases hframe
    | union => cases hframe
    | choice => cases hframe
  | @union subs others hint hint' h =>
    refine .union (forall₂_of_parts (S := fun p q => Alike p.schema q.schema) ?_
      (fun p hp q hq hpq i j => agree_of_parts htable htable' (hparts p hp) (hparts' q hq) hpq)
      his hjs)
    rwa [unionLayer, unionLayer, List.forall₂_map_left_iff, List.forall₂_map_right_iff]
  | @choice subs others hint hint' h =>
    refine choice_agree htable htable' hr hs ?_ hparts hparts' his hjs
    rwa [unionLayer, unionLayer, List.forall₂_map_left_iff, List.forall₂_map_right_iff]
  | object h => exact fields_agree htable htable' h hparts hparts' his hjs

end

theorem Tame.part (hdocument : document.IsJson) (hv : Tame document v) {hint : String}
    {outer : Layer} (hlayer : layer document v hint = .ok outer) :
    ∀ p ∈ outer.parts, TamePart document p :=
  fun p hp => ⟨(partClosed_isJson hdocument).part hv.json hlayer p hp,
    hv.leads hdocument (.part ⟨hint, outer, hlayer, p, hp, rfl⟩)⟩

theorem Sound.hasMappings (h : Sound document r []) {outer : Layer}
    (hparts : ∀ p ∈ outer.parts, TamePart document p) {table : Identity → Option TypeId}
    {is : List TypeId} (his : Fills table outer.parts is)
    (htable : ∀ {ι i}, table ι = some i → r.Knows ι i) : HasMappings outer := by
  intro p hp
  obtain ⟨i, -, ι, hι, hi⟩ := (exists_of_forall₂ his).1 p hp
  exact h.mapping (hparts p hp).2 hι (htable hi)

theorem Agree.bodies (hdocument : document.IsJson) (hr : Sound document r [])
    (hs : Sound document s []) (h : Agree document r s i j) :
    ∃ b c, r.body? i = some b ∧ s.body? j = some c ∧
      BodiesAgree (Agree document r s) b c := by
  obtain ⟨v, w, ι, κ, hv, hw, halike, hι, hκ, hi, hj⟩ := h
  obtain ⟨x, limit, hx, ⟨hlayer, hbody, hids, htable⟩, hxv⟩ := hr.depicted hv hι hi
  obtain ⟨y, limit', hy, ⟨hlayer', hbody', hids', htable'⟩, hyw⟩ := hs.depicted hw hκ hj
  have hxy : Alike x y := by
    rcases identity_alike hv hw halike hι hκ with ⟨text, rfl, rfl⟩ | ⟨key, key', rfl, -, rfl, -⟩
    · obtain ⟨_, htext, htarget⟩ | ⟨⟨_, hshape⟩, -⟩ := hxv
      · obtain ⟨_, htext', htarget'⟩ | ⟨⟨_, hshape⟩, -⟩ := hyw
        · obtain rfl := Identity.reference.inj htext
          obtain rfl := Identity.reference.inj htext'
          obtain rfl := Except.ok.inj (htarget.symm.trans htarget')
          exact .same rfl
        · cases hshape
      · cases hshape
    · obtain ⟨_, htext, -⟩ | ⟨-, -, hform⟩ := hxv
      · cases htext
      · obtain ⟨_, htext, -⟩ | ⟨-, -, hform'⟩ := hyw
        · cases htext
        · exact (Alike.same hform.symm).trans hx.json hv.json
            (halike.trans hv.json hw.json (.same hform'))
  have hparts := hx.part hdocument hlayer
  have hparts' := hy.part hdocument hlayer'
  have hknows : ∀ {ι i}, _ = some i → r.Knows ι i := fun hι => (htable hι).1
  have hknows' : ∀ {ι i}, _ = some i → s.Knows ι i := fun hι => (htable' hι).1
  exact ⟨_, _, hbody, hbody', fill_agree hknows hknows' hr hs
    (layer_alike hdocument hx hy hxy hlayer hlayer' (hr.hasMappings hparts hids hknows)
      (hs.hasMappings hparts' hids' hknows')) hparts hparts' hids hids'⟩

/-- Types that were registered for alike schemas unfold alike. -/
theorem Agree.unfold_eq (hdocument : document.IsJson) (hr : Sound document r [])
    (hs : Sound document s []) (n : Nat) :
    ∀ {i j}, Agree document r s i j → r.unfold n i = s.unfold n j := by
  induction n with
  | zero => exact fun _ => rfl
  | succ n ih =>
    intro i j h
    obtain ⟨b, c, hb, hc, hbc⟩ := h.bodies hdocument hr hs
    rw [Registry.unfold, Registry.unfold, hb, hc]
    exact congrArg some (hbc.level_eq fun _ _ => ih)

end OpenApiClient.Schema

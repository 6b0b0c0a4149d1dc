import OpenApiClient.Proofs.AlikeFlattening
import OpenApiClient.Proofs.AlikeLayers
import OpenApiClient.Proofs.Flattening
import OpenApiClient.Proofs.ReferenceLoops
import OpenApiClient.Proofs.SplicedExtensions

/-! # What a schema declares with those that it extends

A schema declares properties by itself, by the target of its reference, and by the members of its
`allOf`, however deep they are. Flattening gathers all of them, and alike schemas declare the
same. -/
namespace OpenApiClient.Schema

variable {document v w : Value} {own : Members → Prop} {P : Flat → Prop} {key : String}
  {ms ns : Members} {subs kept : List Value} {d f g : Flat}

/-! ## Chains of references that end -/

section Chains

variable {last : Value} {n : Nat}

/-- A chain of references from a schema to one without a reference, by its number of references. -/
inductive EndsIn (document : Value) : Nat → Value → Value → Prop
  | here {v : Value} (h : v.mentions "$ref" = .ok false) : EndsIn document 0 v v
  | target {v w last : Value} {reference : String} {n : Nat}
      (hreference : v.require "$ref" = .ok (.text reference))
      (hlookup : lookup document reference = .ok w) (h : EndsIn document n w last) :
      EndsIn document (n + 1) v last

private theorem EndsIn.comesTo (h : EndsIn document n v last) :
    ComesTo (lookup document) n v (.ok last) := by
  induction h with
  | here hnone => exact .plain hnone
  | target hreference hlookup _ ih => exact .next hreference hlookup ih

private theorem followRefs_followsNew (document : Value) :
    FollowsNew (lookup document) (followRefs document) where
  plain h := followRefs_of_not_mentions h _ _
  next href hnew := by
    rw [followRefs, mentions_of_require href, href]
    simp only [bind, Except.bind, if_true, Value.asText, hnew, Bool.false_eq_true, if_false]

theorem EndsIn.followed (h : EndsIn document n v last) :
    followRefs document (document.weight + 2) [] v = .ok last :=
  h.comesTo.reached (followRefs_followsNew document) fun _ _ hlookup => (lookup_ok hlookup).2

end Chains

/-! ## Declarations -/

/-- Whether a schema has something among its own members, or the target of its reference has it, or
a schema that it extends. -/
inductive Shows (document : Value) (own : Members → Prop) : Value → Prop
  | own {ms : Members} (href : Members.get? ms "$ref" = none) (h : own ms) :
      Shows document own (.mapping ms)
  | target {ms : Members} {reference : String} {target : Value}
      (href : Members.get? ms "$ref" = some (.text reference))
      (hlookup : lookup document reference = .ok target) (h : Shows document own target) :
      Shows document own (.mapping ms)
  | member {ms : Members} {subs : List Value} {sub : Value}
      (href : Members.get? ms "$ref" = none)
      (hall : Members.get? ms "allOf" = some (.sequence subs)) (hsub : sub ∈ subs)
      (h : Shows document own sub) : Shows document own (.mapping ms)

def ListsProperty (key : String) (ms : Members) : Prop :=
  ∃ properties, Members.get? ms "properties" = some (.mapping properties) ∧
    Members.has properties key

def ListsRequired (key : String) (ms : Members) : Prop :=
  ∃ names, Members.get? ms "required" = some (.sequence names) ∧ .text key ∈ names

/-- Whether a schema declares a property. -/
abbrev Declares (document : Value) (key : String) : Value → Prop :=
  Shows document (ListsProperty key)

/-- Whether a schema lists a name as required. -/
abbrev Requires (document : Value) (key : String) : Value → Prop :=
  Shows document (ListsRequired key)

theorem Shows.mapping (h : Shows document own v) : ∃ ms, v = .mapping ms := by
  cases h <;> exact ⟨_, rfl⟩

theorem not_mentions (h : Members.get? ms key = none) :
    (Value.mapping ms).mentions key = .ok false := by
  rw [Value.mentions_mapping, Members.has, h]
  rfl

/-- The references of a schema that shows something come to an end. -/
theorem Shows.endsIn (h : Shows document own v) : ∃ n last, EndsIn document n v last := by
  induction h with
  | own href => exact ⟨0, _, .here (not_mentions href)⟩
  | target href hlookup _ ih =>
    obtain ⟨n, last, hends⟩ := ih
    exact ⟨n + 1, last, .target (require_ok_iff.mpr ⟨_, rfl, href⟩) hlookup hends⟩
  | member href => exact ⟨0, _, .here (not_mentions href)⟩

/-! ## Flattening -/

/-- Whether what some members have is found in what they declare, and is kept when more is
gathered. -/
structure Gathers (own : Members → Prop) (P : Flat → Prop) : Prop where
  key {ms : Members} : own ms → ∃ key ∉ remarkKeys, Members.has ms key
  own {ms : Members} {d : Flat} : own ms → declared (.mapping ms) = .ok d → P d
  append {f g : Flat} : P f ∨ P g →
    P ⟨Members.setAll f.properties g.properties, f.required ++ g.required⟩

private theorem has_setAll (ms more : Members) (key : String) :
    Members.has (Members.setAll ms more) key = (Members.has ms key || Members.has more key) := by
  have hreverse : (Members.at? more.reverse (.text key)).isSome = Members.has more key := by
    rw [Bool.eq_iff_iff, Members.at?_isSome_iff, List.any_reverse, ← Members.at?_isSome_iff]
    rfl
  rw [Members.has, Members.get?, Members.at?_setAll, Option.isSome_or, hreverse, Bool.or_comm]
  rfl

theorem gathers_properties (key : String) :
    Gathers (ListsProperty key) fun d => Members.has d.properties key where
  key := fun ⟨_, hproperties, _⟩ =>
    ⟨"properties", by decide, by rw [Members.has, hproperties]; rfl⟩
  own := by
    rintro ms d ⟨properties, hproperties, hhas⟩ hd
    simp only [declared, get_mapping, hproperties, Option.getD_some, except_bind_ok_iff,
      except_pure_ok_iff, Except.ok.injEq] at hd
    obtain ⟨_, rfl, entries, hentries, _, _, _, _, rfl⟩ := hd
    rw [Value.orEmpty_mapping] at hentries
    obtain rfl := Except.ok.inj hentries
    exact hhas
  append := fun h => by rw [has_setAll]; simpa using h

theorem gathers_required (key : String) :
    Gathers (ListsRequired key) fun d => .text key ∈ d.required where
  key := fun ⟨_, hrequired, _⟩ => ⟨"required", by decide, by rw [Members.has, hrequired]; rfl⟩
  own := by
    rintro ms d ⟨names, hrequired, hmem⟩ hd
    simp only [declared, get_mapping, hrequired, Option.getD_some, except_bind_ok_iff,
      except_pure_ok_iff, Except.ok.injEq] at hd
    obtain ⟨_, _, _, _, _, rfl, elements, helements, rfl⟩ := hd
    obtain rfl := Except.ok.inj ((elements_orNone_sequence names).symm.trans helements)
    exact hmem
  append := fun h => by simpa using h

section

variable (hP : Gathers own P)

include hP

theorem Gathers.foldlM {step : Value → Except Fault Value}
    (h : subs.foldlM (fun f sub => do f.add (← step sub)) f = .ok g)
    (hsome : P f ∨ ∃ sub ∈ subs, ∀ flat d, step sub = .ok flat → declared flat = .ok d → P d) :
    P g := by
  induction subs generalizing f with
  | nil =>
    obtain rfl := Except.ok.inj h
    simpa using hsome
  | cons sub rest ih =>
    rw [List.foldlM_cons] at h
    obtain ⟨_, hfirst, hrest⟩ := except_bind_ok_iff.mp h
    obtain ⟨flat, hflat, hadd⟩ := except_bind_ok_iff.mp hfirst
    obtain ⟨d, hd, rfl⟩ := add_ok_iff.mp hadd
    refine ih hrest ?_
    rcases hsome with hf | ⟨shown, hmem, hshown⟩
    · exact .inl (hP.append (.inl hf))
    · rcases List.mem_cons.mp hmem with rfl | hmem
      · exact .inl (hP.append (.inr (hshown flat d hflat hd)))
      · exact .inr ⟨shown, hmem, hshown⟩

/-- What a schema shows is declared by what it flattens to. -/
theorem Gathers.flattenWith (hshows : Shows document own v) {fuel : Nat} {active : List Value}
    {flat : Value} (hflat : flattenWith document fuel active v = .ok flat)
    (hd : declared flat = .ok d) : P d := by
  induction hshows generalizing fuel active flat d with
  | @own ms href hown =>
    cases fuel with
    | zero => cases hflat
    | succ fuel =>
      obtain ⟨last, hlast, hstep⟩ := flattenWith_ok hflat
      rw [followRefs_of_not_mentions (not_mentions href)] at hlast
      obtain rfl := Except.ok.inj hlast
      rcases hstep with ⟨-, rfl⟩ | ⟨_, _, gathered, total, -, -, -, htotal, rfl⟩
      · exact hP.own hown hd
      · obtain rfl := Except.ok.inj ((declared_toSchema total).symm.trans hd)
        obtain ⟨own, hdown, rfl⟩ := add_ok_iff.mp htotal
        exact hP.append (.inr (hP.own hown hdown))
  | @target ms reference target href hlookup hshows ih =>
    cases fuel with
    | zero => cases hflat
    | succ fuel =>
      -- The chains of the schema and of its target have one end.
      obtain ⟨n, last, hends⟩ := hshows.endsIn
      have hchain := EndsIn.target (require_ok_iff.mpr ⟨ms, rfl, href⟩) hlookup hends
      rw [flattenWith_succ, hchain.followed, ← hends.followed, ← flattenWith_succ] at hflat
      exact ih hflat hd
  | @member ms subs sub href hall hsub _ ih =>
    cases fuel with
    | zero => cases hflat
    | succ fuel =>
      obtain ⟨last, hlast, hstep⟩ := flattenWith_ok hflat
      rw [followRefs_of_not_mentions (not_mentions href)] at hlast
      obtain rfl := Except.ok.inj hlast
      have hrequire : (Value.mapping ms).require "allOf" = .ok (.sequence subs) :=
        require_ok_iff.mpr ⟨ms, rfl, hall⟩
      rcases hstep with ⟨hnone, -⟩ | ⟨all, elements, gathered, total, hall', helements, hgathered,
        htotal, rfl⟩
      · cases hnone.symm.trans (mentions_of_require hrequire)
      · obtain rfl := Except.ok.inj (hrequire.symm.trans hall')
        obtain rfl := Except.ok.inj helements
        obtain rfl := Except.ok.inj ((declared_toSchema total).symm.trans hd)
        obtain ⟨_, -, rfl⟩ := add_ok_iff.mp htotal
        exact hP.append (.inl (hP.foldlM hgathered (.inr ⟨sub, hsub, fun _ _ => ih⟩)))

theorem Gathers.saysMore (hshows : Shows document own v) : saysMore v := by
  obtain ⟨ms, rfl⟩ := hshows.mapping
  obtain ⟨key, hkey, hhas⟩ : ∃ key ∉ remarkKeys, Members.has ms key := by
    cases hshows with
    | own href hown => exact hP.key hown
    | target href => exact ⟨"$ref", by decide, by rw [Members.has, href]; rfl⟩
    | member href hall => exact ⟨"allOf", by decide, by rw [Members.has, hall]; rfl⟩
  obtain ⟨remark, hremark, hall⟩ := isRemark_mapping ms
  cases remark with
  | false => simp [Schema.saysMore, hremark]
  | true =>
    obtain ⟨m, hm, hmk⟩ := Members.get?_isSome_iff.mp hhas
    obtain ⟨s, hs, hms⟩ := hall rfl m hm
    exact absurd (Scalar.text.inj (hmk.symm.trans hms) ▸ hs) hkey

/-- What a schema shows that extends others is in what is gathered for it. -/
theorem Gathers.gather (hshows : Shows document own (.mapping ms))
    (href : Members.get? ms "$ref" = none) (hkept : extended (.mapping ms) = .ok kept)
    (h : gather document kept (.mapping ms) = .ok f) : P f := by
  obtain ⟨gathered, hgathered, hadd⟩ := except_bind_ok_iff.mp h
  obtain ⟨d, hd, rfl⟩ := add_ok_iff.mp hadd
  cases hshows with
  | own _ hown => exact hP.append (.inr (hP.own hown hd))
  | target href' => cases href.symm.trans href'
  | @member _ subs sub _ hall hsub hshows =>
    obtain ⟨all, elements, hall', helements, -, rfl⟩ := extended_ok hkept
    obtain rfl := Option.some.inj (hall.symm.trans hall')
    obtain rfl := Except.ok.inj helements
    refine hP.append (.inl (hP.foldlM hgathered (.inr ⟨sub, ?_, fun _ _ => hP.flattenWith hshows⟩)))
    exact List.mem_filter.mpr ⟨hsub, hP.saysMore hshows⟩

end

/-! ## Alike schemas -/

def RespectsAlike (own : Members → Prop) : Prop :=
  ∀ {ms ns : Members}, (Value.mapping ms).IsJson → AlikeMembers ms ns → own ms → own ns

theorem respectsAlike_listsProperty (key : String) : RespectsAlike (ListsProperty key) := by
  rintro ms ns hms h ⟨ps, hps, hhas⟩
  rcases h.cases "properties" (by decide) with ⟨hnone, -⟩ | ⟨_, w, hv, hw, hform⟩
  · cases hnone.symm.trans hps
  · obtain rfl := Option.some.inj (hv.symm.trans hps)
    have hjson := isJson_of_get? hms hps
    obtain ⟨qs, rfl⟩ := mapping_of_form hjson hform
    refine ⟨qs, hw, ?_⟩
    have hforms : (Members.get? ps key).map (form false) =
        (Members.get? qs key).map (form false) := by
      simpa [holdsProperties] using get?_of_form hjson hform (by simp [isKept, holdsProperties])
        (by simp [isKept, holdsProperties])
    rw [Members.has, ← Option.isSome_map, ← hforms, Option.isSome_map]
    exact hhas

theorem respectsAlike_listsRequired (key : String) : RespectsAlike (ListsRequired key) := by
  rintro ms ns hms h ⟨names, hnames, hmem⟩
  obtain ⟨others, hothers, hall⟩ := h.get?_sequence hms "required" (by decide) hnames
  exact ⟨others, hothers, (hall.mem_scalar_iff _).mp hmem⟩

theorem Shows.alike (hown : RespectsAlike own) (h : Shows document own v) (hv : v.IsJson)
    (halike : Alike v w) : Shows document own w := by
  induction h generalizing w with
  | own href h =>
    obtain ⟨ns, rfl, hns⟩ := halike.mapping hv
    refine .own ?_ (hown hv hns h)
    simpa [Members.has, href] using hns.has "$ref" (by decide)
  | target href hlookup h ih =>
    obtain ⟨ns, rfl, hns⟩ := halike.mapping hv
    exact .target ((hns.get?_scalar_iff "$ref" (by decide) _).mp href) hlookup h
  | @member ms subs sub href hall hsub _ ih =>
    obtain ⟨ns, rfl, hns⟩ := halike.mapping hv
    obtain ⟨others, hothers, hforms⟩ := hns.get?_sequence hv "allOf" (by decide) hall
    obtain ⟨other, hother, hform⟩ := (exists_of_forall₂ hforms).1 sub hsub
    refine .member ?_ hothers hother (ih ?_ (.same hform))
    · simpa [Members.has, href] using hns.has "$ref" (by decide)
    · exact Value.isJson_sequence_iff.mp (isJson_of_get? hv hall) sub hsub

end OpenApiClient.Schema

import OpenApiClient.Operation.Parameter
import OpenApiClient.Proofs.BlankDescriptions
import OpenApiClient.Proofs.MemberLookups
import OpenApiClient.Proofs.SchemaForms
import OpenApiClient.Proofs.SchemaGraph
import OpenApiClient.Proofs.TextParts
import Mathlib.Data.List.Induction

/-! # References to shared parameters

A pointer is followed step by step, and each step is decoded. A shared parameter is found by the whole
text of a reference instead, among texts that are made of the keys as they are, and it is taken as it
stands there. So the two ways lead to one parameter exactly when the reference writes its name as the
document does and the entry under it is no reference again. -/
namespace OpenApiClient

namespace Pointer

theorem decodeSlashes_eq_self {cs : List Char} (h : '~' ∉ cs ∨ '/' ∉ decodeSlashes cs) :
    decodeSlashes cs = cs := by
  fun_induction decodeSlashes cs with
  | case1 rest ih =>
    exact h.elim (absurd List.mem_cons_self) (absurd List.mem_cons_self)
  | case2 c rest _ ih =>
    rw [ih (h.imp (mt (List.mem_cons_of_mem _)) (mt (List.mem_cons_of_mem _)))]
  | case3 => rfl

theorem decodeTildes_eq_self {cs : List Char} (h : '~' ∉ cs ∨ '~' ∉ decodeTildes cs) :
    decodeTildes cs = cs := by
  fun_induction decodeTildes cs with
  | case1 rest ih =>
    exact h.elim (absurd List.mem_cons_self) (absurd List.mem_cons_self)
  | case2 c rest _ ih =>
    rw [ih (h.imp (mt (List.mem_cons_of_mem _)) (mt (List.mem_cons_of_mem _)))]
  | case3 => rfl

/-- A step without a tilde stands for itself. -/
theorem decodeStep_eq_self {cs : List Char} (h : '~' ∉ cs) : decodeStep cs = cs := by
  rw [decodeStep, decodeSlashes_eq_self (.inl h), decodeTildes_eq_self (.inl h)]

theorem eq_decodeStep {cs : List Char} (htilde : '~' ∉ decodeStep cs) (hslash : '/' ∉ decodeStep cs) :
    decodeStep cs = cs := by
  have htildes : decodeStep cs = decodeSlashes cs := decodeTildes_eq_self (.inr htilde)
  rw [htildes] at hslash ⊢
  exact decodeSlashes_eq_self (.inr hslash)

/-- A pointer of three steps, the first two of which hold neither a tilde nor a slash. -/
theorem steps?_eq_three {reference first second key : String}
    (h : steps? reference = some [first, second, key])
    (hfirst : '~' ∉ first.toList ∧ '/' ∉ first.toList)
    (hsecond : '~' ∉ second.toList ∧ '/' ∉ second.toList) :
    ∃ written : String, reference = "#/" ++ first ++ "/" ++ second ++ "/" ++ written ∧
      '/' ∉ written.toList ∧ key = String.ofList (decodeStep written.toList) := by
  unfold steps? at h
  split at h
  · rename_i rest hreference
    obtain ⟨f, others, hfields, hf, hothers⟩ := List.map_eq_cons_iff.mp (Option.some.inj h)
    obtain ⟨g, last, rfl, hg, hlast⟩ := List.map_eq_cons_iff.mp hothers
    obtain ⟨w, nothing, rfl, hw, hnothing⟩ := List.map_eq_cons_iff.mp hlast
    obtain rfl := List.map_eq_nil_iff.mp hnothing
    subst hf hg
    rw [String.toList_ofList] at hfirst hsecond
    rw [eq_decodeStep hfirst.1 hfirst.2, eq_decodeStep hsecond.1 hsecond.2]
    have hrest : f ++ '/' :: (g ++ '/' :: w) = rest := by
      simpa [hfields, List.intercalate] using Text.intercalate_fields '/' rest
    refine ⟨String.ofList w, String.toList_inj.mp ?_, ?_, by rw [← hw, String.toList_ofList]⟩
    · simp [hreference, ← hrest]
    · rw [String.toList_ofList]
      intro hslash
      have hmem : w ∈ Text.fields (· == '/') rest := by simp [hfields]
      simpa using Text.not_of_mem_fields hmem hslash
  · cases h

theorem step_ok_iff {node found : Value} {part : String}
    (h : part.toList.all Text.isDigitSign = false) :
    step node part = .ok found ↔
      ∃ ms, node = .mapping ms ∧ Members.get? ms part = some found := by
  cases node with
  | scalar s => simp [step]
  | sequence items => simp [step, h]
  | mapping ms => cases hms : Members.get? ms part <;> simp [step, hms]

theorem step_orEmpty {node found : Value} {ms : Members} {part : String}
    (hms : node.orEmpty.members = .ok ms) (h : step node part = .ok found) :
    Members.get? ms part = some found := by
  cases node with
  | scalar s => simp [step] at h
  | mapping own =>
    obtain rfl : own = ms := by simpa [Value.members] using hms
    cases hown : Members.get? own part <;> simp [step, hown] at h ⊢
    exact h
  | sequence items =>
    cases items with
    | nil =>
      simp only [step] at h
      split at h
      · cases h
      · split at h <;> simp at h
    | cons v rest => simp [Value.orEmpty, Value.isTruthy, Value.members] at hms

end Pointer


namespace Operation

variable {document item found : Value} {table : Members} {reference name : String}

/-- The entries of a document that its parameters are shared under. -/
def parameterEntries (document : Value) : Except Fault Members := do
  let components := (← document.get "components").orEmpty
  (← components.get "parameters").orEmpty.members

/-- The value of the last entry whose key shows itself as a name. -/
def lastShown (table : Members) (name : String) : Option Value :=
  (table.reverse.find? fun m => m.1.display == name).map Prod.snd

/-- The shared parameters that the entries of a document make. -/
def sharedOf (table : Members) : Members :=
  table.foldl (fun ms m => Members.set ms (.text (sharedParameterPrefix ++ m.1.display)) m.2) []

private theorem sharedParameters_eq (document : Value) :
    sharedParameters document = (parameterEntries document).map sharedOf := by
  simp only [sharedParameters, parameterEntries, bind, Except.bind, pure, Except.pure]
  cases document.get "components" with
  | error fault => rfl
  | ok components =>
    dsimp only
    cases components.orEmpty.get "parameters" with
    | error fault => rfl
    | ok entries =>
      dsimp only
      cases entries.orEmpty.members <;> rfl

/-- Under a reference there is the last of the entries that are shown as what follows the prefix. -/
theorem get?_sharedOf (table : Members) (name : String) :
    Members.get? (sharedOf table) (sharedParameterPrefix ++ name) = lastShown table name := by
  unfold sharedOf lastShown
  induction table using List.reverseRecOn with
  | nil => rfl
  | append_singleton table m ih =>
    rw [List.foldl_append, List.foldl_cons, List.foldl_nil, Members.get?_set, ih, List.reverse_append,
      List.reverse_singleton, List.singleton_append, List.find?_cons]
    by_cases hm : m.1.display = name
    · simp [hm]
    · have hne : sharedParameterPrefix ++ name ≠ sharedParameterPrefix ++ m.1.display := by
        simpa using Ne.symm hm
      rw [if_neg hne, beq_false_of_ne hm]

/-- Members whose keys are texts, each of them once. -/
structure TextKeys (table : Members) : Prop where
  texts : ∀ m ∈ table, ∃ key, m.1 = .text key
  nodup : (table.map Prod.fst).Nodup

/-- Where the keys are different texts, only the entry under a name shows itself as the name. -/
theorem TextKeys.lastShown_eq (h : TextKeys table) (name : String) :
    lastShown table name = Members.get? table name := by
  have hmem : ∀ v, lastShown table name = some v → Members.get? table name = some v := by
    intro v hv
    obtain ⟨m, hm, rfl⟩ := Option.map_eq_some_iff.mp hv
    obtain ⟨key, hkey⟩ := h.texts m (List.mem_reverse.mp (List.mem_of_find?_eq_some hm))
    have hname : m.1.display = name := by simpa using List.find?_some hm
    rw [hkey] at hname
    obtain rfl : key = name := hname
    refine (Members.get?_eq_some_iff h.nodup).mpr ?_
    exact hkey ▸ List.mem_reverse.mp (List.mem_of_find?_eq_some hm)
  cases hshown : lastShown table name with
  | some v => exact (hmem v hshown).symm
  | none =>
    cases hfound : Members.get? table name with
    | none => rfl
    | some v =>
      have hnone := List.find?_eq_none.mp (Option.map_eq_none_iff.mp hshown)
      exact absurd (beq_self_eq_true name)
        (hnone _ (List.mem_reverse.mpr (Value.mem_of_get?_eq_some hfound)))

/-- Looking up a reference finds what stands under it, unless that is nothing. -/
theorem lookupParameter_refTo_iff {shared : Members} :
    lookupParameter shared (Schema.refTo reference) = .ok (found, name) ↔
      Members.get? shared reference = some found ∧ found ≠ .null ∧
        name = Text.lastField '/' reference := by
  have hmentions : (Schema.refTo reference).mentions "$ref" = .ok true := rfl
  have hrequire : (Schema.refTo reference).require "$ref" = .ok (.text reference) := rfl
  obtain ⟨entry, hentry⟩ : ∃ entry, (Members.get? shared reference).getD .null = entry := ⟨_, rfl⟩
  simp only [lookupParameter, hmentions, hrequire, Value.asScalar, bind, Except.bind, if_true]
  rw [← Members.get?, hentry]
  have hget : Members.get? shared reference = some found ∧ found ≠ .null ↔
      entry = found ∧ found ≠ .null := by
    refine and_congr_left fun hne => ⟨?_, ?_⟩
    · intro hfound
      rw [← hentry, hfound, Option.getD_some]
    · intro heq
      exact getD_null_eq hne (hentry.trans heq)
  rw [← and_assoc, hget]
  split
  · constructor
    · intro h
      cases h
    · rintro ⟨⟨hnull, hne⟩, -⟩
      exact absurd hnull.symm hne
  · rename_i hnull heq
    obtain rfl := Scalar.text.inj (Value.scalar.inj heq)
    simp only [pure, Except.pure, Except.ok.injEq, Prod.mk.injEq]
    constructor
    · rintro ⟨hfound, hname⟩
      exact ⟨⟨hfound, hfound ▸ hnull⟩, hname.symm⟩
    · rintro ⟨⟨hfound, -⟩, hname⟩
      exact ⟨hfound, hname.symm⟩
  · rename_i htext
    exact absurd rfl (htext reference)

/-- A reference that leads to something through an entry of the shared parameters. -/
structure Refers (document : Value) (reference : String) (found : Value) : Prop where
  entries : ∃ table, parameterEntries document = .ok table
  steps : ∃ key, Pointer.steps? reference = some ["components", "parameters", key]
  resolves : document.resolve reference = .ok found

/-- What a reference ends at when it is followed, from reference to reference, through entries of the
shared parameters. -/
inductive FollowedTo (document : Value) : String → Value → Prop
  | last {reference : String} {ms : Members} (h : Refers document reference (.mapping ms))
      (hplain : Members.get? ms "$ref" = none) : FollowedTo document reference (.mapping ms)
  | next {reference further : String} {ms : Members} {item : Value}
      (h : Refers document reference (.mapping ms))
      (href : Members.get? ms "$ref" = some (.text further))
      (hrest : FollowedTo document further item) : FollowedTo document reference item

/-- What a reference leads to is an entry under the key that its last step decodes to. -/
theorem Refers.get? (h : Refers document reference found) :
    ∃ table written, parameterEntries document = .ok table ∧
      reference = sharedParameterPrefix ++ written ∧ '/' ∉ written.toList ∧
      Members.get? table (String.ofList (Pointer.decodeStep written.toList)) = some found := by
  obtain ⟨table, htable⟩ := h.entries
  obtain ⟨key, hsteps⟩ := h.steps
  obtain ⟨written, hreference, hslash, rfl⟩ :=
    Pointer.steps?_eq_three hsteps (by decide) (by decide)
  refine ⟨table, written, htable, hreference, hslash, ?_⟩
  have hresolves := h.resolves
  rw [Value.resolve, hsteps] at hresolves
  obtain ⟨components, hcomponents, hrest⟩ := except_bind_ok_iff.mp hresolves
  obtain ⟨parameters, hparameters, hfound⟩ := except_bind_ok_iff.mp hrest
  obtain ⟨ms, rfl, hms⟩ := (Pointer.step_ok_iff (by decide)).mp hcomponents
  obtain ⟨cs, rfl, hcs⟩ := (Pointer.step_ok_iff (by decide)).mp hparameters
  have hmembers : parameters.orEmpty.members = .ok table := by
    simpa [parameterEntries, hms, hcs, bind, Except.bind] using htable
  exact Pointer.step_orEmpty hmembers (by simpa using hfound)

private theorem FollowedTo.refers (h : FollowedTo document reference item) :
    ∃ ms, Refers document reference (.mapping ms) := by
  cases h with
  | last h _ => exact ⟨_, h⟩
  | next h _ _ => exact ⟨_, h⟩

/-- A reference is followed to a parameter, which is no reference. -/
theorem FollowedTo.isPlain (h : FollowedTo document reference item) :
    ∃ ms, item = .mapping ms ∧ Members.get? ms "$ref" = none := by
  induction h with
  | last _ hplain => exact ⟨_, rfl, hplain⟩
  | next _ _ _ ih => exact ih

/-- Looking up a reference finds what the reference is followed to exactly when the last entry that is
shown as the reference writes it holds this. Among keys that are different texts, and for a reference
without a tilde, it finds what the one pointer leads to, be it a reference again. -/
theorem lookupParameter_followed_iff (h : FollowedTo document reference item) :
    ∃ table written, parameterEntries document = .ok table ∧
      sharedParameters document = .ok (sharedOf table) ∧
      reference = sharedParameterPrefix ++ written ∧
      ((∃ name, lookupParameter (sharedOf table) (Schema.refTo reference) = .ok (item, name)) ↔
        lastShown table written = some item) ∧
      (TextKeys table → '~' ∉ written.toList → ∃ ms, document.resolve reference = .ok (.mapping ms) ∧
        lookupParameter (sharedOf table) (Schema.refTo reference) = .ok (.mapping ms, written)) := by
  obtain ⟨found, hfound⟩ := h.refers
  obtain ⟨table, written, htable, rfl, hslash, hget⟩ := hfound.get?
  have hshared : sharedParameters document = .ok (sharedOf table) := by
    rw [sharedParameters_eq, htable]
    rfl
  refine ⟨table, written, htable, hshared, rfl, ?_, fun hkeys htilde => ?_⟩
  · obtain ⟨ms, rfl, -⟩ := h.isPlain
    simp only [lookupParameter_refTo_iff, get?_sharedOf]
    exact ⟨fun ⟨_, hshown, _⟩ => hshown, fun hshown => ⟨_, hshown, nofun, rfl⟩⟩
  · refine ⟨found, hfound.resolves, ?_⟩
    rw [Pointer.decodeStep_eq_self htilde, String.ofList_toList] at hget
    rw [lookupParameter_refTo_iff, get?_sharedOf, hkeys.lastShown_eq]
    exact ⟨hget, nofun, (Text.lastField_append hslash (by decide)).symm⟩

def page : Value := .mapping [(.text "name", .text "page")]

def sharingPage (key : String) : Value :=
  .mapping [(.text "components", .mapping [(.text "parameters", .mapping [(.text key, page)])])]

theorem lookupParameter_followed_page :
    FollowedTo (sharingPage "page") "#/components/parameters/page" page ∧
      ∃ shared, sharedParameters (sharingPage "page") = .ok shared ∧
        lookupParameter shared (Schema.refTo "#/components/parameters/page") = .ok (page, "page") := by
  have hfollowed : FollowedTo (sharingPage "page") "#/components/parameters/page" page :=
    .last ⟨⟨_, rfl⟩, ⟨"page", by decide⟩, rfl⟩ rfl
  obtain ⟨table, written, htable, hshared, hwritten, -, hplain⟩ :=
    lookupParameter_followed_iff hfollowed
  obtain rfl : [(.text "page", page)] = table := Except.ok.inj htable
  have happend : sharedParameterPrefix ++ "page" = sharedParameterPrefix ++ written := hwritten
  obtain rfl : "page" = written := by simpa using happend
  obtain ⟨ms, hms, hlookup⟩ := hplain ⟨by simp, by simp⟩ (by decide)
  obtain rfl : [(.text "name", .text "page")] = ms := Value.mapping.inj (Except.ok.inj hms)
  exact ⟨hfollowed, _, hshared, hlookup⟩

/-- The name of a shared parameter holds a slash, which a pointer writes in its own way. -/
theorem not_lookupParameter_followed : ¬ ∀ (document : Value) (reference : String) (item : Value),
    FollowedTo document reference item → ∃ shared name, sharedParameters document = .ok shared ∧
      lookupParameter shared (Schema.refTo reference) = .ok (item, name) := by
  intro h
  have hfollowed : FollowedTo (sharingPage "a/b") "#/components/parameters/a~1b" page :=
    .last ⟨⟨_, rfl⟩, ⟨"a/b", by decide⟩, rfl⟩ rfl
  obtain ⟨shared, name, hshared, hlookup⟩ := h _ _ _ hfollowed
  obtain rfl : sharedOf [(.text "a/b", page)] = shared := Except.ok.inj hshared
  have hnone : lastShown [(.text "a/b", page)] "a~1b" = none := by decide
  cases hnone.symm.trans ((get?_sharedOf _ _).symm.trans (lookupParameter_refTo_iff.mp hlookup).1)

end Operation

end OpenApiClient

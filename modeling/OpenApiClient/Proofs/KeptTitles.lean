import OpenApiClient.Proofs.SchemaForms

/-! # Titles that stay in structural keys

The title of a schema that names a model stays in its structural key. From the key it can be read
again, also where a document is not in JSON: a written value ends where a delimiter stands, and no
key but the text is written as `"title"`. -/
namespace OpenApiClient

namespace Scalar

def keyText : Scalar → String
  | text s => s
  | s => s.canonical

private theorem canonicalKey_eq (s : Scalar) : s.canonicalKey = Text.canonical s.keyText := by
  cases s <;> rfl

def WrittenAlone (key : String) : Prop := ∀ s : Scalar, s.keyText = key → s = text key

/-- A key with a character that stands in no number is written by its text alone, if it is not the
word for null or a truth value. -/
theorem writtenAlone_of_mark {key : String} {c : Char} (hc : c ∈ key.toList)
    (hnumber : Decimal.isNumberChar c = false) (hname : c ∉ "InfinityNaN".toList)
    (hwords : ∀ w ∈ words, w.canonical ≠ key) : WrittenAlone key := by
  intro s h
  by_cases htext : ∃ t, s = text t
  · obtain ⟨t, rfl⟩ := htext
    exact congrArg text h
  · have hnot : ∀ u, s ≠ text u := fun u hu => htext ⟨u, hu⟩
    have hkey : s.keyText = s.canonical := by
      cases s with
      | text t => exact absurd rfl (hnot t)
      | _ => rfl
    have hcanonical : s.canonical = key := hkey.symm.trans h
    have hmem : c ∈ s.canonical.toList := hcanonical ▸ hc
    rcases mem_words_or hnot with hs | ⟨n, rfl⟩ | ⟨d, rfl⟩
    · exact absurd hcanonical (hwords s hs)
    · have hdigit : Decimal.isNumberChar c := by
        rcases mem_toString_int hmem with hdigit | rfl
        · simp [Decimal.isNumberChar, hdigit]
        · rfl
      simp [hnumber] at hdigit
    · rcases mem_documentText hmem with hmark | hword
      · simp [hnumber] at hmark
      · exact absurd hword hname

end Scalar

namespace Value

variable {v w : Value} {ms ns : Members}

theorem memberText_eq (m : Scalar × Value) :
    memberText m = (Text.canonical m.1.keyText).toList ++ ':' :: ' ' :: m.2.written.toList := by
  simp [memberText, Scalar.canonicalKey_eq]

variable {cs ds : List (List Char)} {close : Char}

/-- Texts with commas between them are told apart when each of them ends where a delimiter
stands. -/
theorem joined_ends (hclose : close ∈ [']', '\x7d']) {r r' : List Char}
    (hends : ∀ c ∈ cs, ∀ d ∈ ds, ∀ r r', Scalar.Delimited r → Scalar.Delimited r' →
      c ++ r = d ++ r' → c = d ∧ r = r')
    (hhead : ∀ c, c ∈ cs ∨ c ∈ ds → ∃ first rest, c = first :: rest ∧ first ≠ close)
    (h : joined cs ++ close :: r = joined ds ++ close :: r') : cs = ds ∧ r = r' := by
  obtain ⟨hcomma, hplain⟩ : close ≠ ',' ∧ Scalar.isPlainChar close = false := by
    rcases List.mem_pair.mp hclose with rfl | rfl <;> decide
  rw [← List.map_id cs, ← List.map_id ds] at h
  exact joined_inj hcomma hplain hends hhead h

/-- Whether two values are told apart by how they are written before a delimiter. -/
def WrittenEnds (v w : Value) : Prop :=
  ∀ {r r' : List Char}, Scalar.Delimited r → Scalar.Delimited r' →
    v.written.toList ++ r = w.written.toList ++ r' → v.written.toList = w.written.toList ∧ r = r'

theorem memberTexts_inj (hvalues : ∀ m ∈ ms, ∀ n ∈ ns, WrittenEnds m.2 n.2) {r r' : List Char}
    (h : joined (ms.map memberText) ++ '\x7d' :: r = joined (ns.map memberText) ++ '\x7d' :: r') :
    ms.map memberText = ns.map memberText ∧ r = r' := by
  have hhead : ∀ ms : Members, ∀ c ∈ ms.map memberText,
      ∃ first rest, c = first :: rest ∧ first ≠ '\x7d' := by
    refine fun ms => List.forall_mem_map.mpr fun m _ => ?_
    rw [memberText_eq, Text.toList_canonical]
    exact ⟨'"', _, rfl, by decide⟩
  have hmember : ∀ m ∈ ms, ∀ n ∈ ns, ∀ r r', Scalar.Delimited r → Scalar.Delimited r' →
      memberText m ++ r = memberText n ++ r' → memberText m = memberText n ∧ r = r' := by
    intro m hm n hn r r' hr hr' hmn
    rw [memberText_eq, memberText_eq, List.append_assoc, List.append_assoc] at hmn
    obtain ⟨hkey, hvalue⟩ := Text.canonical_append_inj hmn
    simp only [List.cons_append, List.cons.injEq, true_and] at hvalue
    obtain ⟨hvalue, hrest⟩ := hvalues m hm n hn hr hr' hvalue
    exact ⟨by rw [memberText_eq, memberText_eq, hkey, hvalue], hrest⟩
  exact joined_ends (by decide) (List.forall_mem_map.mpr fun m hm =>
    List.forall_mem_map.mpr fun n hn => hmember m hm n hn)
    (fun c hc => hc.elim (hhead ms c) (hhead ns c)) h

/-- A written value ends where a delimiter stands, whatever its keys are. -/
theorem written_ends (v w : Value) : WrittenEnds v w := by
  induction v generalizing w with
  | scalar s =>
    intro r r' hr hr' h
    obtain ⟨hsequence, hmapping⟩ := same_kind h
    cases w with
    | scalar t =>
      obtain ⟨rfl, hrest⟩ := Scalar.canonical_append_inj hr hr' h
      exact ⟨rfl, hrest⟩
    | sequence ys => simp at hsequence
    | mapping ns => simp at hmapping
  | sequence items ih =>
    intro r r' hr hr' h
    obtain ⟨ys, rfl⟩ := (same_kind h).1.mp ⟨items, rfl⟩
    simp only [toList_written_sequence, List.cons_append, List.append_assoc, List.nil_append,
      List.cons.injEq, true_and] at h ⊢
    have hhead : ∀ xs : List Value, ∀ c ∈ xs.map fun v => v.written.toList,
        ∃ first rest, c = first :: rest ∧ first ≠ ']' := by
      intro xs
      exact List.forall_mem_map.mpr fun x _ => written_ne_close x (by decide)
    obtain ⟨hitems, hrest⟩ := joined_ends (by decide) (List.forall_mem_map.mpr fun x hx =>
      List.forall_mem_map.mpr fun y _ r r' hr hr' hxy => ih x hx y hr hr' hxy)
      (fun c hc => hc.elim (hhead items c) (hhead ys c)) h
    exact ⟨by rw [hitems], hrest⟩
  | mapping ms ih =>
    intro r r' hr hr' h
    obtain ⟨ns, rfl⟩ := (same_kind h).2.mp ⟨ms, rfl⟩
    simp only [toList_written_mapping, List.cons_append, List.append_assoc, List.nil_append,
      List.cons.injEq, true_and] at h ⊢
    obtain ⟨hmembers, hrest⟩ := memberTexts_inj (fun m hm n _ => ih m hm n.2) h
    exact ⟨by rw [hmembers], hrest⟩

private theorem written_eq_text {s : String} (h : (Value.text s).written = w.written) :
    w = .text s := by
  have happend : (Value.text s).written.toList ++ [] = w.written.toList ++ [] := by rw [h]
  obtain ⟨hsequence, hmapping⟩ := same_kind happend
  cases w with
  | scalar t =>
    have hdelimited : Scalar.Delimited [] := by simp [Scalar.Delimited]
    obtain ⟨hst, -⟩ := Scalar.canonical_append_inj hdelimited hdelimited happend
    exact congrArg Value.scalar hst.symm
  | sequence ys => simp at hsequence
  | mapping ns => simp at hmapping

/-- What stands under a key is written alike in mappings that are written alike. -/
theorem get?_of_written {key : String} (hkey : Scalar.WrittenAlone key)
    (h : (Value.mapping ms).written = (Value.mapping ns).written) :
    (Members.get? ms key).map written = (Members.get? ns key).map written := by
  have hlists := congrArg String.toList h
  rw [toList_written_mapping, toList_written_mapping] at hlists
  obtain ⟨hmembers, -⟩ := memberTexts_inj (fun m _ n _ => written_ends m.2 n.2)
    (List.cons.inj hlists).2
  clear h hlists
  induction ms generalizing ns with
  | nil =>
    obtain rfl := List.map_eq_nil_iff.mp hmembers.symm
    rfl
  | cons m rest ih =>
    obtain ⟨n, others, rfl, hmn, hrest⟩ := List.map_eq_cons_iff.mp hmembers.symm
    rw [memberText_eq, memberText_eq] at hmn
    obtain ⟨htext, hvalue⟩ := Text.canonical_append_inj hmn
    have hwritten : m.2.written = n.2.written := by
      simpa [String.toList_inj] using hvalue.symm
    have hsame : m.1 = .text key ↔ n.1 = .text key :=
      ⟨fun hm => hkey _ (by rw [htext, hm]; rfl), fun hn => hkey _ (by rw [← htext, hn]; rfl)⟩
    rw [Members.get?_cons, Members.get?_cons]
    by_cases hm : m.1 = .text key
    · rw [if_pos hm, if_pos (hsame.mp hm), Option.map_some, Option.map_some, hwritten]
    · rw [if_neg hm, if_neg (mt hsame.mpr hm)]
      exact ih hrest.symm

end Value

namespace Schema

variable {ms ns ws : Members} {v : Value} {title key : String}

def namingKeys : List String := ["properties", "enum", "type", "allOf", "title"]

private theorem writtenAlone_of_namingKey : ∀ key ∈ namingKeys, Scalar.WrittenAlone key := by
  have hwords : ∀ key ∈ namingKeys, ∀ w ∈ Scalar.words, w.canonical ≠ key := by decide
  have hmarks : ∀ key ∈ namingKeys,
      'p' ∈ key.toList ∨ 'u' ∈ key.toList ∨ 'l' ∈ key.toList := by decide
  intro key hkey
  rcases hmarks key hkey with hc | hc | hc
  all_goals exact Scalar.writtenAlone_of_mark hc (by decide) (by decide) (hwords key hkey)

structure ReadAlike (key : String) (ms ns : Members) : Prop where
  has : Members.has ms key = Members.has ns key
  text (s : String) : Members.get? ms key = some (.text s) ↔ Members.get? ns key = some (.text s)

theorem ReadAlike.symm (h : ReadAlike key ms ns) : ReadAlike key ns ms :=
  ⟨h.has.symm, fun s => (h.text s).symm⟩

theorem ReadAlike.trans (h : ReadAlike key ms ns) (h' : ReadAlike key ns ws) :
    ReadAlike key ms ws :=
  ⟨h.has.trans h'.has, fun s => (h.text s).trans (h'.text s)⟩

private theorem readAlike_of_written (hkey : Scalar.WrittenAlone key)
    (h : (Value.mapping ms).written = (Value.mapping ns).written) : ReadAlike key ms ns := by
  have hsame := Value.get?_of_written hkey h
  have htext : ∀ {ms ns : Members} (s : String),
      (Members.get? ms key).map Value.written = (Members.get? ns key).map Value.written →
      Members.get? ms key = some (.text s) → Members.get? ns key = some (.text s) := by
    intro ms ns s hsame hs
    rw [hs] at hsame
    obtain ⟨u, hu, hwritten⟩ := Option.map_eq_some_iff.mp hsame.symm
    rw [hu, Value.written_eq_text hwritten.symm]
  refine ⟨?_, fun s => ⟨htext s hsame, htext s hsame.symm⟩⟩
  rw [Members.has, Members.has, ← Option.isSome_map, hsame, Option.isSome_map]

private theorem readAlike_of_form (h : form false (.mapping ms) = .ok (.mapping ws))
    (hkept : isKept false (namesModel ms) (.text key)) : ReadAlike key ms ws := by
  obtain ⟨_, heq, hforms⟩ := get?_form h
  obtain rfl := Value.mapping.inj heq
  have hform := hforms key hkept
  refine ⟨?_, fun s => ⟨fun hs => ?_, fun hs => ?_⟩⟩
  · rw [Members.has, Members.has, ← Option.isSome_map, hform, Option.isSome_map]
  · rw [hs] at hform
    obtain ⟨u, hu, heq⟩ := Option.map_eq_some_iff.mp hform.symm
    rw [hu, Except.ok.inj heq]
  · rw [hs] at hform
    obtain ⟨u, hu, heq⟩ := Option.map_eq_some_iff.mp hform
    rw [hu, eq_of_form_scalar heq.symm]

private theorem mapping_of_form_ok (h : form false v = .ok (.mapping ws)) : ∃ ns, v = .mapping ns := by
  cases v with
  | scalar s => simp at h
  | sequence items =>
    rw [form_sequence] at h
    obtain ⟨_, -, hsequence⟩ := except_map_ok_iff.mp h
    cases hsequence
  | mapping ns => exact ⟨ns, rfl⟩

/-- Schemas of one structural key are mappings that have each key alike which stays in both. -/
theorem readAlike_of_structuralKey {text : String} (hms : structuralKey (.mapping ms) = .ok text)
    (hv : structuralKey v = .ok text) : ∃ ns, v = .mapping ns ∧ ∀ key, Scalar.WrittenAlone key →
      isKept false (namesModel ms) (.text key) → isKept false (namesModel ns) (.text key) →
        ReadAlike key ms ns := by
  rw [structuralKey_eq, except_map_ok_iff] at hms hv
  obtain ⟨x, hx, hwritten⟩ := hms
  obtain ⟨y, hy, rfl⟩ := hv
  obtain ⟨ws, rfl, -⟩ := get?_form hx
  obtain ⟨us, rfl⟩ : ∃ us, y = .mapping us :=
    (Value.same_kind (congrArg (·.toList ++ []) hwritten)).2.mp ⟨ws, rfl⟩
  obtain ⟨ns, rfl⟩ := mapping_of_form_ok hy
  exact ⟨ns, rfl, fun key hkey hleft hright => (readAlike_of_form hx hleft).trans
    ((readAlike_of_written hkey hwritten).trans (readAlike_of_form hy hright).symm)⟩

private theorem isKept_title (named : Bool) : isKept false named (.text "title") = named := by
  cases named <;> rfl

/-- Schemas of one structural key both name models or neither does, and both extend others or
neither does. If they name models, they have the same title. -/
theorem namesModel_of_structuralKey {text : String}
    (hms : structuralKey (.mapping ms) = .ok text) (hv : structuralKey v = .ok text) :
    ∃ ns, v = .mapping ns ∧ namesModel ms = namesModel ns ∧
      Members.has ms "allOf" = Members.has ns "allOf" ∧
      (namesModel ms → ∀ title, Members.get? ms "title" = some (.text title) →
        Members.get? ns "title" = some (.text title)) := by
  obtain ⟨ns, rfl, halike⟩ := readAlike_of_structuralKey hms hv
  have hread : ∀ key ∈ ["properties", "enum", "type", "allOf"], ReadAlike key ms ns := by
    intro key hkey
    have hkept := (by decide : ∀ key ∈ ["properties", "enum", "type", "allOf"],
      key ∈ namingKeys ∧ key ∉ documentationKeys) key hkey
    exact halike key (writtenAlone_of_namingKey key hkept.1)
      (isKept_of_not_documentation hkept.2) (isKept_of_not_documentation hkept.2)
  have hnames : namesModel ms = namesModel ns := by
    simp only [namesModel, (hread "properties" (by decide)).has, (hread "enum" (by decide)).has,
      (hread "type" (by decide)).text]
  refine ⟨ns, rfl, hnames, (hread "allOf" (by decide)).has, fun hnamed title htitle => ?_⟩
  have hkept : ∀ named : Bool, named → isKept false named (.text "title") :=
    fun named h => (isKept_title named).trans h
  exact ((halike "title" (writtenAlone_of_namingKey _ (by decide)) (hkept _ hnamed)
    (hkept _ (hnames ▸ hnamed))).text title).mp htitle

end Schema

end OpenApiClient

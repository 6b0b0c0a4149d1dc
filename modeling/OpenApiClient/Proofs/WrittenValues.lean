import OpenApiClient.Proofs.CanonicalText
import OpenApiClient.Proofs.ValueNodes

/-! # Values in JSON and their texts

In a value of JSON the keys of a mapping are texts, each once. Such values are told apart by the
texts that they are written as: every value ends where a comma or a bracket stands. -/
namespace OpenApiClient

namespace Value

def hasTextKeys : Value → Bool
  | .mapping ms =>
    (ms.all fun m => match m.1 with
      | .text _ => true
      | _ => false) && decide (ms.map Prod.fst).Nodup
  | _ => true

/-- A value as JSON knows it: the keys of all its mappings are texts, each once. -/
def IsJson (v : Value) : Prop := ∀ w ∈ v.nodes, w.hasTextKeys

instance (v : Value) : Decidable v.IsJson := inferInstanceAs (Decidable (∀ w ∈ v.nodes, _))

theorem IsJson.node {v w : Value} (h : v.IsJson) (hw : w ∈ v.nodes) : w.IsJson :=
  fun x hx => h x (nodes_subset hw hx)

@[simp] theorem isJson_scalar (s : Scalar) : (Value.scalar s).IsJson := by
  intro w hw
  rw [mem_nodes_scalar.mp hw]
  rfl

theorem isJson_sequence_iff {items : List Value} :
    (Value.sequence items).IsJson ↔ ∀ v ∈ items, v.IsJson := by
  constructor
  · exact fun h v hv => h.node (mem_nodes_sequence.mpr (.inr ⟨v, hv, v.mem_nodes_self⟩))
  · intro h w hw
    rcases mem_nodes_sequence.mp hw with rfl | ⟨v, hv, hw⟩
    · rfl
    · exact h v hv w hw

theorem isJson_mapping_iff {ms : Members} :
    (Value.mapping ms).IsJson ↔ (∀ m ∈ ms, ∃ key, m.1 = .text key) ∧ (ms.map Prod.fst).Nodup ∧
      ∀ m ∈ ms, m.2.IsJson := by
  have hkeys : (Value.mapping ms).hasTextKeys ↔
      (∀ m ∈ ms, ∃ key, m.1 = .text key) ∧ (ms.map Prod.fst).Nodup := by
    simp only [hasTextKeys, Bool.and_eq_true, List.all_eq_true, decide_eq_true_eq]
    refine and_congr_left fun _ => forall₂_congr fun m _ => ?_
    cases m.1 <;> simp
  constructor
  · intro h
    obtain ⟨htext, hnodup⟩ := hkeys.mp (h _ (mem_nodes_self _))
    exact ⟨htext, hnodup, fun m hm =>
      h.node (mem_nodes_mapping.mpr (.inr ⟨m, hm, m.2.mem_nodes_self⟩))⟩
  · rintro ⟨htext, hnodup, hall⟩ w hw
    rcases mem_nodes_mapping.mp hw with rfl | ⟨m, hm, hw⟩
    · exact hkeys.mpr ⟨htext, hnodup⟩
    · exact hall m hm w hw

def joined (cs : List (List Char)) : List Char := [',', ' '].intercalate cs

theorem joined_cons_cons (c d : List Char) (cs : List (List Char)) :
    joined (c :: d :: cs) = c ++ ',' :: ' ' :: joined (d :: cs) := by
  simp [joined, List.intercalate_cons_cons]

theorem joined_singleton (c : List Char) : joined [c] = c := List.intercalate_singleton

private theorem delimited_cons {c : Char} (hc : Scalar.isPlainChar c = false) (rest : List Char) :
    Scalar.Delimited (c :: rest) := by
  intro d more h
  rw [← (List.cons.inj h).1, hc]

variable {α : Type} {f : α → List Char} {close : Char}

/-- What is written of some values does not start with a bracket that none of them starts with. -/
theorem joined_ne_close {z : α} (zs : List α) (hhead : ∃ c rest, f z = c :: rest ∧ c ≠ close)
    (rest r : List Char) : joined ((z :: zs).map f) ++ rest ≠ close :: r := by
  intro hr
  obtain ⟨c, more, hc, hne⟩ := hhead
  cases zs with
  | nil =>
    rw [List.map_singleton, joined_singleton, hc] at hr
    exact hne (List.cons.inj hr).1
  | cons w zs =>
    rw [List.map_cons, List.map_cons, joined_cons_cons, hc] at hr
    exact hne (List.cons.inj hr).1

/-- What a list of values is written as gives back the list, if that is so for each of them. -/
theorem joined_inj (hclose : close ≠ ',') (hplain : Scalar.isPlainChar close = false)
    {xs ys : List α} {r r' : List Char}
    (hinj : ∀ x ∈ xs, ∀ y ∈ ys, ∀ r r', Scalar.Delimited r → Scalar.Delimited r' →
      f x ++ r = f y ++ r' → x = y ∧ r = r')
    (hhead : ∀ z, z ∈ xs ∨ z ∈ ys → ∃ c rest, f z = c :: rest ∧ c ≠ close)
    (h : joined (xs.map f) ++ close :: r = joined (ys.map f) ++ close :: r') :
    xs = ys ∧ r = r' := by
  have hcomma := fun rest => delimited_cons (show Scalar.isPlainChar ',' = false by rfl) rest
  have hend := fun rest => delimited_cons hplain rest
  induction xs generalizing ys with
  | nil =>
    cases ys with
    | nil => exact ⟨rfl, (List.cons.inj h).2⟩
    | cons y ys =>
      exact absurd h.symm (joined_ne_close ys (hhead y (.inr List.mem_cons_self)) _ r)
  | cons x xs ih =>
    cases ys with
    | nil => exact absurd h (joined_ne_close xs (hhead x (.inl List.mem_cons_self)) _ r')
    | cons y ys =>
      have hxy := hinj x List.mem_cons_self y List.mem_cons_self
      cases xs with
      | nil =>
        cases ys with
        | nil =>
          rw [List.map_singleton, List.map_singleton, joined_singleton, joined_singleton] at h
          obtain ⟨rfl, hrest⟩ := hxy _ _ (hend r) (hend r') h
          exact ⟨rfl, (List.cons.inj hrest).2⟩
        | cons y' ys =>
          rw [List.map_singleton, joined_singleton, List.map_cons, List.map_cons, joined_cons_cons,
            List.append_assoc] at h
          obtain ⟨-, hrest⟩ := hxy _ _ (hend r) (hcomma _) h
          exact absurd (List.cons.inj hrest).1 hclose
      | cons x' xs =>
        cases ys with
        | nil =>
          rw [List.map_singleton, joined_singleton, List.map_cons, List.map_cons, joined_cons_cons,
            List.append_assoc] at h
          obtain ⟨-, hrest⟩ := hxy _ _ (hcomma _) (hend r') h
          exact absurd (List.cons.inj hrest).1.symm hclose
        | cons y' ys =>
          simp only [List.map_cons, joined_cons_cons, List.append_assoc, List.cons_append] at h
          obtain ⟨rfl, hrest⟩ := hxy _ _ (hcomma _) (hcomma _) h
          have htail := (List.cons.inj (List.cons.inj hrest).2).2
          obtain ⟨hlist, hr⟩ := ih
            (fun a ha b hb => hinj a (List.mem_cons_of_mem _ ha) b (List.mem_cons_of_mem _ hb))
            (fun z hz => hhead z (hz.imp (List.mem_cons_of_mem _) (List.mem_cons_of_mem _)))
            (by simpa only [List.map_cons] using htail)
          exact ⟨congrArg _ hlist, hr⟩

theorem toList_written_sequence (items : List Value) :
    (Value.sequence items).written.toList =
      '[' :: (joined (items.map fun v => v.written.toList) ++ [']']) := by
  have hitems : writtenItems items = items.map written := by
    induction items with
    | nil => rfl
    | cons v rest ih => rw [writtenItems, ih, List.map_cons]
  simp [written, hitems, joined, Function.comp_def]

def memberText (m : Scalar × Value) : List Char := (m.1.canonicalKey ++ ": " ++ m.2.written).toList

private theorem memberText_text (key : String) (v : Value) :
    memberText (.text key, v) = (Text.canonical key).toList ++ ':' :: ' ' :: v.written.toList := by
  simp [memberText, Scalar.canonicalKey]

theorem toList_written_mapping (ms : Members) :
    (Value.mapping ms).written.toList =
      '\x7b' :: (joined (ms.map memberText) ++ ['\x7d']) := by
  have hmembers : writtenMembers ms =
      ms.map fun m => m.1.canonicalKey ++ ": " ++ m.2.written := by
    induction ms with
    | nil => rfl
    | cons m rest ih => rw [writtenMembers, ih, List.map_cons]
  have htexts : (writtenMembers ms).map String.toList = ms.map memberText := by
    rw [hmembers, List.map_map]
    rfl
  rw [written, String.toList_append, String.toList_append, String.toList_intercalate, htexts]
  simp [joined]

/-- How a value starts: as a scalar does, or with the bracket of a collection. -/
theorem written_head (v : Value) :
    ∃ c rest, v.written.toList = c :: rest ∧ c ∉ [',', ':', ']', '\x7d', 'o'] ∧
      (c = '[' ↔ ∃ items, v = .sequence items) ∧ (c = '\x7b' ↔ ∃ ms, v = .mapping ms) := by
  cases v with
  | scalar s =>
    obtain ⟨c, rest, hlist, hc⟩ := Scalar.canonical_head s
    have hplain : ∀ c ∈ ['[', '\x7b'], Scalar.isPlainChar c = false := by
      simp only [List.mem_cons, List.not_mem_nil, or_false, forall_eq_or_imp, forall_eq]
      decide
    have hmark : c ∉ ['[', '\x7b'] := by
      rcases hc with ⟨-, rfl⟩ | ⟨-, hc⟩
      · decide
      · intro hmem
        simp [hplain c hmem] at hc
    refine ⟨c, rest, hlist, ?_, ?_, ?_⟩
    · rcases hc with ⟨-, rfl⟩ | ⟨hs, hc⟩
      · decide
      · have hclosing : ∀ c ∈ [',', ':', ']', '\x7d'], Scalar.isPlainChar c = false := by
          simp only [List.mem_cons, List.not_mem_nil, or_false, forall_eq_or_imp, forall_eq]
          decide
        have hletter : c ≠ 'o' := by
          rintro rfl
          exact Scalar.not_mem_canonical hs (hlist ▸ List.mem_cons_self)
        intro hmem
        rcases List.mem_append.mp
          (show c ∈ [',', ':', ']', '\x7d'] ++ ['o'] from hmem) with hmem | hmem
        · simp [hclosing c hmem] at hc
        · exact hletter (List.mem_singleton.mp hmem)
    · simp_all
    · simp_all
  | sequence items => exact ⟨_, _, toList_written_sequence items, by decide, by simp, by simp⟩
  | mapping ms => exact ⟨_, _, toList_written_mapping ms, by decide, by simp, by simp⟩

theorem written_ne_close (v : Value) {close : Char} (hclose : close ∈ [']', '\x7d']) :
    ∃ c rest, v.written.toList = c :: rest ∧ c ≠ close := by
  obtain ⟨c, rest, hlist, hc, -⟩ := written_head v
  have hclosing : ∀ close ∈ [']', '\x7d'], close ∈ [',', ':', ']', '\x7d', 'o'] := by simp
  exact ⟨c, rest, hlist, fun h => hc (h ▸ hclosing close hclose)⟩

theorem same_kind {v w : Value} {r r' : List Char}
    (h : v.written.toList ++ r = w.written.toList ++ r') :
    ((∃ items, v = .sequence items) ↔ ∃ items, w = .sequence items) ∧
      ((∃ ms, v = .mapping ms) ↔ ∃ ms, w = .mapping ms) := by
  obtain ⟨c, rest, hlist, -, hsequence, hmapping⟩ := written_head v
  obtain ⟨d, rest', hlist', -, hsequence', hmapping'⟩ := written_head w
  rw [hlist, hlist'] at h
  obtain rfl := (List.cons.inj h).1
  exact ⟨hsequence.symm.trans hsequence', hmapping.symm.trans hmapping'⟩

theorem written_append_inj {v w : Value} (hv : v.IsJson) (hw : w.IsJson) {r r' : List Char}
    (hr : Scalar.Delimited r) (hr' : Scalar.Delimited r')
    (h : v.written.toList ++ r = w.written.toList ++ r') : v = w ∧ r = r' := by
  induction v generalizing w r r' with
  | scalar s =>
    obtain ⟨hsequence, hmapping⟩ := same_kind h
    cases w with
    | scalar t =>
      obtain ⟨rfl, hrest⟩ := Scalar.canonical_append_inj hr hr' h
      exact ⟨rfl, hrest⟩
    | sequence ys => simp at hsequence
    | mapping ns => simp at hmapping
  | sequence items ih =>
    obtain ⟨ys, rfl⟩ := (same_kind h).1.mp ⟨items, rfl⟩
    have hitems := isJson_sequence_iff.mp hv
    have hys := isJson_sequence_iff.mp hw
    simp only [toList_written_sequence, List.cons_append, List.append_assoc, List.nil_append,
      List.cons.injEq, true_and] at h
    obtain ⟨rfl, hrest⟩ := joined_inj (by decide) (by rfl)
      (fun x hx y hy r r' hr hr' hxy => ih x hx (hitems x hx) (hys y hy) hr hr' hxy)
      (fun z _ => written_ne_close z (by decide)) h
    exact ⟨rfl, hrest⟩
  | mapping ms ih =>
    obtain ⟨ns, rfl⟩ := (same_kind h).2.mp ⟨ms, rfl⟩
    obtain ⟨hkeys, -, hms⟩ := isJson_mapping_iff.mp hv
    obtain ⟨hkeys', -, hns⟩ := isJson_mapping_iff.mp hw
    simp only [toList_written_mapping, List.cons_append, List.append_assoc, List.nil_append,
      List.cons.injEq, true_and] at h
    have hkey : ∀ m, m ∈ ms ∨ m ∈ ns → ∃ key, m.1 = .text key :=
      fun m hm => hm.elim (hkeys m) (hkeys' m)
    obtain ⟨rfl, hrest⟩ := joined_inj (by decide) (by rfl)
      (fun m hm n hn r r' hr hr' hmn => by
        obtain ⟨k, v⟩ := m
        obtain ⟨l, u⟩ := n
        obtain ⟨key, rfl⟩ := hkeys _ hm
        obtain ⟨other, rfl⟩ := hkeys' _ hn
        rw [memberText_text, memberText_text, List.append_assoc, List.append_assoc] at hmn
        obtain ⟨rfl, hrest⟩ := Text.canonical_append_inj hmn
        simp only [List.cons_append, List.cons.injEq, true_and] at hrest
        obtain ⟨rfl, hr⟩ := ih _ hm (hms _ hm) (hns _ hn) hr hr' hrest
        exact ⟨rfl, hr⟩)
      (fun m hm => by
        obtain ⟨k, v⟩ := m
        obtain ⟨key, rfl⟩ := hkey _ hm
        rw [memberText_text, Text.toList_canonical]
        exact ⟨'"', _, rfl, by decide⟩) h
    exact ⟨rfl, hrest⟩

/-- Values in JSON are told apart by their texts. -/
theorem written_injective {v w : Value} (hv : v.IsJson) (hw : w.IsJson)
    (h : v.written = w.written) : v = w :=
  (written_append_inj hv hw (by simp [Scalar.Delimited]) (by simp [Scalar.Delimited])
    (congrArg (String.toList · ++ []) h)).1

end Value

end OpenApiClient

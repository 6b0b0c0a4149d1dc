import OpenApiClient.Proofs.RegisteredTypes
import Mathlib.Data.List.Nodup
import Mathlib.Data.List.Perm.Basic
import Mathlib.Data.String.Basic

/-! # What structural keys tell apart

Schemas in JSON have one structural key exactly when their shapes are equal but for the order of the
members of mappings. No structural key is the key of an optional type. -/
namespace OpenApiClient

theorem forall₂_of_common {α β γ : Type} {P : α → γ → Prop} {Q : β → γ → Prop} {R : α → β → Prop}
    {xs : List α} {ys : List β} {zs : List γ} (hxs : List.Forall₂ P xs zs)
    (hys : List.Forall₂ Q ys zs) (h : ∀ x ∈ xs, ∀ y ∈ ys, ∀ z ∈ zs, P x z → Q y z → R x y) :
    List.Forall₂ R xs ys := by
  induction hxs generalizing ys with
  | nil =>
    cases hys
    exact .nil
  | cons hx _ ih =>
    obtain ⟨y, rest, hy, hrest, rfl⟩ := List.forall₂_cons_right_iff.mp hys
    refine .cons (h _ List.mem_cons_self y List.mem_cons_self _ List.mem_cons_self hx hy)
      (ih hrest fun a ha b hb c hc => ?_)
    exact h a (List.mem_cons_of_mem _ ha) b (List.mem_cons_of_mem _ hb) c
      (List.mem_cons_of_mem _ hc)

namespace Members

variable {m : Scalar × Value} {ms ns vs ws : Members}

def Ascending (ms : Members) : Prop := ms.Pairwise fun m n => m.1.keyLe? n.1 = some true

theorem keyLe?_text_iff {s t : String} :
    (Scalar.text s).keyLe? (.text t) = some true ↔ s ≤ t := by
  simp [Scalar.keyLe?]

private theorem insertSorted_ascending (hm : ∃ key, m.1 = .text key)
    (hms : ∀ n ∈ ms, ∃ key, n.1 = .text key) (hascending : Ascending ms)
    (h : insertSorted m ms = .ok ns) : Ascending ns := by
  obtain ⟨key, hkey⟩ := hm
  induction ms generalizing ns with
  | nil =>
    cases h
    exact List.pairwise_singleton _ _
  | cons n rest ih =>
    obtain ⟨⟨text, htext⟩, hrest⟩ := List.forall_mem_cons.mp hms
    obtain ⟨hfirst, hlater⟩ := List.pairwise_cons.mp hascending
    by_cases hle : key ≤ text
    · have hhead : m.1.keyLe? n.1 = some true := by rw [hkey, htext, keyLe?_text_iff]; exact hle
      simp only [insertSorted, hhead, Except.ok.injEq] at h
      subst h
      refine List.pairwise_cons.mpr ⟨List.forall_mem_cons.mpr ⟨hhead, fun o ho => ?_⟩, hascending⟩
      obtain ⟨other, hother⟩ := hrest o ho
      have hnext := hfirst o ho
      rw [htext, hother, keyLe?_text_iff] at hnext
      rw [hkey, hother, keyLe?_text_iff]
      exact le_trans hle hnext
    · have hhead : m.1.keyLe? n.1 = some false := by simp [hkey, htext, Scalar.keyLe?, hle]
      simp only [insertSorted, hhead] at h
      obtain ⟨others, hothers, rfl⟩ := except_map_ok_iff.mp h
      refine List.pairwise_cons.mpr ⟨fun o ho => ?_, ih hrest hlater hothers⟩
      rcases List.mem_cons.mp ((insertSorted_perm hothers).mem_iff.mp ho) with rfl | ho
      · rw [hkey, htext, keyLe?_text_iff]
        exact le_of_not_ge hle
      · exact hfirst o ho

private theorem sorted_ascending (hms : ∀ m ∈ ms, ∃ key, m.1 = .text key) (h : sorted ms = .ok ns) :
    Ascending ns := by
  induction ms generalizing ns with
  | nil =>
    cases h
    exact .nil
  | cons m rest ih =>
    obtain ⟨others, hothers, h⟩ := except_bind_ok_iff.mp h
    obtain ⟨hm, hrest⟩ := List.forall_mem_cons.mp hms
    have htexts : ∀ n ∈ others, ∃ key, n.1 = .text key :=
      fun n hn => hrest n ((sorted_perm hothers).mem_iff.mp hn)
    exact insertSorted_ascending hm htexts (ih hrest hothers) h

theorem sorted_congr (htext : ∀ m ∈ ms, ∃ key, m.1 = .text key) (hnodup : (ms.map Prod.fst).Nodup)
    (hperm : ms.Perm ns) : sorted ms = sorted ns := by
  have htext' : ∀ n ∈ ns, ∃ key, n.1 = .text key := fun n hn => htext n (hperm.mem_iff.mpr hn)
  obtain ⟨vs, hvs⟩ := sorted_of_text htext
  obtain ⟨ws, hws⟩ := sorted_of_text htext'
  have hvsPerm := sorted_perm hvs
  have hwsPerm := (sorted_perm hws).trans hperm.symm
  rw [hvs, hws]
  refine congrArg _ (List.Perm.eq_of_pairwise (fun v w hv hw hvw hwv => ?_)
    (sorted_ascending htext hvs) (sorted_ascending htext' hws) (hvsPerm.trans hwsPerm.symm))
  have hv := hvsPerm.mem_iff.mp hv
  have hw := hwsPerm.mem_iff.mp hw
  obtain ⟨key, hkey⟩ := htext v hv
  obtain ⟨other, hother⟩ := htext w hw
  rw [hkey, hother, keyLe?_text_iff] at hvw hwv
  exact List.inj_on_of_nodup_map hnodup hv hw (by rw [hkey, hother, le_antisymm hvw hwv])

end Members

namespace Value

variable {v w z : Value} {ms : Members} {items : List Value}

/-- Whether values are equal but for the order of the members of the mappings in them. -/
inductive Rearranged : Value → Value → Prop
  | scalar (s : Scalar) : Rearranged (.scalar s) (.scalar s)
  | sequence {items others : List Value} (h : List.Forall₂ Rearranged items others) :
      Rearranged (.sequence items) (.sequence others)
  | mapping {ms moved ns : Members} (hmoved : ms.Perm moved)
      (hkeys : moved.map Prod.fst = ns.map Prod.fst)
      (hvalues : List.Forall₂ Rearranged (moved.map Prod.snd) (ns.map Prod.snd)) :
      Rearranged (.mapping ms) (.mapping ns)

theorem forall₂_members {R : Value → Value → Prop} {ms ns : Members}
    (hkeys : ms.map Prod.fst = ns.map Prod.fst)
    (hvalues : List.Forall₂ R (ms.map Prod.snd) (ns.map Prod.snd)) :
    List.Forall₂ (fun m n => n.1 = m.1 ∧ R m.2 n.2) ms ns := by
  induction ms generalizing ns with
  | nil =>
    obtain rfl := List.map_eq_nil_iff.mp hkeys.symm
    exact .nil
  | cons m rest ih =>
    obtain ⟨n, others, rfl, hkey, hothers⟩ := List.map_eq_cons_iff.mp hkeys.symm
    obtain ⟨hvalue, hrest⟩ := List.forall₂_cons.mp hvalues
    exact .cons ⟨hkey, hvalue⟩ (ih hothers.symm hrest)

def SortsTo (m n : Scalar × Value) : Prop := n.1 = m.1 ∧ m.2.sorted = .ok n.2

theorem sorted_sequence_ok_iff : (Value.sequence items).sorted = .ok z ↔
    ∃ xs, List.Forall₂ (fun v x => v.sorted = .ok x) items xs ∧ z = .sequence xs := by
  have hitems : sortedItems items = items.mapM sorted := by
    induction items with
    | nil => rfl
    | cons v rest ih =>
      rw [sortedItems, ih, List.mapM_cons]
      cases v.sorted with
      | error fault => rfl
      | ok w => cases rest.mapM sorted <;> rfl
  simp only [sorted, hitems, except_map_ok_iff, mapM_ok_iff_forall₂, eq_comm (a := z)]

theorem sorted_mapping_ok_iff : (Value.mapping ms).sorted = .ok z ↔
    ∃ vs ws, List.Forall₂ SortsTo ms vs ∧ Members.sorted vs = .ok ws ∧ z = .mapping ws := by
  have hmember : ∀ m n : Scalar × Value,
      (m.2.sorted.map (m.1, ·) : Except Fault (Scalar × Value)) = .ok n ↔ SortsTo m n := by
    rintro ⟨k, v⟩ ⟨l, u⟩
    cases h : v.sorted <;> simp [SortsTo, Except.map, h, eq_comm]
  simp only [sorted, Schema.sortedMembers_eq, except_bind_ok_iff, mapM_ok_iff_forall₂, hmember,
    except_map_ok_iff]
  constructor
  · rintro ⟨vs, hvs, ws, hws, rfl⟩
    exact ⟨vs, ws, hvs, hws, rfl⟩
  · rintro ⟨vs, ws, hvs, hws, rfl⟩
    exact ⟨vs, hvs, ws, hws, rfl⟩

/-- Values that are sorted to one value are equal but for the order of members. -/
theorem rearranged_of_sorted (hv : v.sorted = .ok z) (hw : w.sorted = .ok z) : Rearranged v w := by
  induction v generalizing w z with
  | scalar s =>
    cases hv
    cases w with
    | scalar t =>
      cases hw
      exact .scalar s
    | sequence items =>
      obtain ⟨_, -, hz⟩ := sorted_sequence_ok_iff.mp hw
      cases hz
    | mapping ns =>
      obtain ⟨_, _, -, -, hz⟩ := sorted_mapping_ok_iff.mp hw
      cases hz
  | sequence items ih =>
    obtain ⟨xs, hxs, rfl⟩ := sorted_sequence_ok_iff.mp hv
    cases w with
    | scalar t => cases hw
    | mapping ns =>
      obtain ⟨_, _, -, -, hz⟩ := sorted_mapping_ok_iff.mp hw
      cases hz
    | sequence others =>
      obtain ⟨ys, hys, hz⟩ := sorted_sequence_ok_iff.mp hw
      obtain rfl := Value.sequence.inj hz
      exact .sequence (forall₂_of_common hxs hys fun x hx y _ _ _ hxz hyz => ih x hx hxz hyz)
  | mapping ms ih =>
    obtain ⟨vs, ws, hvs, hws, rfl⟩ := sorted_mapping_ok_iff.mp hv
    cases w with
    | scalar t => cases hw
    | sequence others =>
      obtain ⟨_, -, hz⟩ := sorted_sequence_ok_iff.mp hw
      cases hz
    | mapping ns =>
      obtain ⟨us, ws', hus, hws', hz⟩ := sorted_mapping_ok_iff.mp hw
      obtain rfl := Value.mapping.inj hz
      -- The members of both are sorted to one list, so the first ones can be moved to where the
      -- second ones stand.
      have hperm : vs.Perm us := (Members.sorted_perm hws).symm.trans (Members.sorted_perm hws')
      obtain ⟨moved, hmoved, hsorts⟩ : ∃ moved, ms.Perm moved ∧ List.Forall₂ SortsTo moved us := by
        have hcomp : Relation.Comp (List.Forall₂ SortsTo) List.Perm ms us := ⟨vs, hvs, hperm⟩
        rwa [List.forall₂_comp_perm_eq_perm_comp_forall₂] at hcomp
      refine .mapping hmoved ((Schema.forall₂_keys hsorts).symm.trans (Schema.forall₂_keys hus)) ?_
      rw [List.forall₂_map_left_iff, List.forall₂_map_right_iff]
      exact forall₂_of_common hsorts hus fun m hm n _ _ _ hmu hnu =>
        ih m (hmoved.mem_iff.mpr hm) hmu.2 hnu.2

/-- Values in JSON that are equal but for the order of members are sorted to one value. -/
theorem sorted_of_rearranged (hjson : v.IsJson) (h : Rearranged v w) (hv : v.sorted = .ok z) :
    w.sorted = .ok z := by
  induction v generalizing w z with
  | scalar s =>
    cases h
    exact hv
  | sequence items ih =>
    have hitems := isJson_sequence_iff.mp hjson
    obtain ⟨xs, hxs, rfl⟩ := sorted_sequence_ok_iff.mp hv
    cases h with
    | @sequence _ others h =>
      refine sorted_sequence_ok_iff.mpr ⟨xs, ?_, rfl⟩
      exact forall₂_of_common h.flip hxs.flip fun y _ x _ v hv hvy hvx =>
        ih v hv (hitems v hv) hvy hvx
  | mapping ms ih =>
    obtain ⟨htext, hnodup, hms⟩ := isJson_mapping_iff.mp hjson
    obtain ⟨vs, ws, hvs, hws, rfl⟩ := sorted_mapping_ok_iff.mp hv
    cases h with
    | @mapping _ moved ns hmoved hkeys hvalues =>
      -- What the members are sorted to is moved along with them.
      obtain ⟨us, hus, hperm⟩ : ∃ us, List.Forall₂ SortsTo moved us ∧ us.Perm vs :=
        List.perm_comp_forall₂ hmoved.symm hvs
      have hns : List.Forall₂ SortsTo ns us :=
        forall₂_of_common (forall₂_members hkeys hvalues).flip hus.flip
          fun n _ u _ m hm hmn hmu => ⟨hmu.1.trans hmn.1.symm, ih m (hmoved.mem_iff.mpr hm)
            (hms m (hmoved.mem_iff.mpr hm)) hmn.2 hmu.2⟩
      have hkeysOf := Schema.forall₂_keys hvs
      have htextOf : ∀ v ∈ vs, ∃ key, v.1 = .text key := by
        intro v hv
        obtain ⟨m, hm, hmv⟩ := (exists_of_forall₂ hvs).2 v hv
        exact hmv.1 ▸ htext m hm
      have hsame : Members.sorted vs = Members.sorted us :=
        Members.sorted_congr htextOf (hkeysOf ▸ hnodup) hperm.symm
      exact sorted_mapping_ok_iff.mpr ⟨us, ws, hns, hsame.symm.trans hws, rfl⟩

end Value

namespace Schema

variable {v w : Value}

private theorem isJson_shapeIn (properties : Bool) (hv : v.IsJson) : (shapeIn properties v).IsJson := by
  induction v generalizing properties with
  | scalar s => exact hv
  | sequence items ih =>
    have hitems : shapeItems items = items.map (shapeIn false) := by
      clear ih hv
      induction items with
      | nil => rfl
      | cons v rest ih => rw [shapeItems, ih, List.map_cons]
    have hall := Value.isJson_sequence_iff.mp hv
    rw [shapeIn, hitems]
    refine Value.isJson_sequence_iff.mpr (List.forall_mem_map.mpr fun x hx => ?_)
    exact ih x hx false (hall x hx)
  | mapping ms ih =>
    obtain ⟨htext, hnodup, hms⟩ := Value.isJson_mapping_iff.mp hv
    have hkept : (ms.filter fun m => isKept properties (namesModel ms) m.1).Sublist ms :=
      List.filter_sublist
    rw [shapeIn, shapeMembers_eq]
    refine Value.isJson_mapping_iff.mpr ⟨List.forall_mem_map.mpr fun m hm =>
      htext m (hkept.subset hm), ?_, List.forall_mem_map.mpr fun m hm =>
        ih m (hkept.subset hm) _ (hms m (hkept.subset hm))⟩
    rw [List.map_map]
    exact (hkept.map _).nodup hnodup

/-- Schemas in JSON have structural keys. Those of two schemas are the same exactly when the shapes
are equal but for the order of members, and none is the key of an optional type. -/
theorem structuralKey_exact (hv : v.IsJson) (hw : w.IsJson) :
    (∃ key, structuralKey v = .ok key) ∧
      (structuralKey v = structuralKey w ↔ (shape v).Rearranged (shape w)) ∧
      ∀ inner, structuralKey v ≠ .ok (optionalKey inner) := by
  obtain ⟨x, hx, -⟩ := form_of_isJson false hv
  refine ⟨⟨x.written, by rw [structuralKey_eq, hx]; rfl⟩, ⟨fun h => ?_, fun h => ?_⟩,
    fun inner h => structuralKey_ne_optionalKey h rfl⟩
  · have hform := form_of_structuralKey hv hw h
    exact Value.rearranged_of_sorted hx (hform.symm.trans hx)
  · have hy : form false w = .ok x := Value.sorted_of_rearranged (isJson_shapeIn false hv) h hx
    exact structuralKey_of_form (hx.trans hy.symm)

def boundedCount (minimum : Scalar) : Value :=
  .mapping [(.text "title", .text "Count"), (.text "type", .text "integer"),
    (.text "minimum", .scalar minimum)]

def untitledCount : Value :=
  .mapping [(.text "minimum", .scalar (.int 1)), (.text "type", .text "integer")]

/-- A truth value is not the number that it counts as. -/
theorem structuralKey_exact_count :
    (boundedCount (.int 1)).IsJson ∧ (boundedCount (.bool true)).IsJson ∧ untitledCount.IsJson ∧
      (shape (boundedCount (.int 1))).Rearranged (shape untitledCount) ∧
      ¬ (shape (boundedCount (.bool true))).Rearranged (shape untitledCount) := by
  have hwhole : (boundedCount (.int 1)).IsJson := by decide
  have htruth : (boundedCount (.bool true)).IsJson := by decide
  have hplain : untitledCount.IsJson := by decide
  obtain ⟨-, hsame, -⟩ := structuralKey_exact hwhole hplain
  obtain ⟨-, hother, -⟩ := structuralKey_exact htruth hplain
  have hkey : structuralKey untitledCount =
      .ok "\x7b\"minimum\": 1, \"type\": \"integer\"\x7d" := by rfl
  have hwholeKey : structuralKey (boundedCount (.int 1)) =
      .ok "\x7b\"minimum\": 1, \"type\": \"integer\"\x7d" := by rfl
  have htruthKey : structuralKey (boundedCount (.bool true)) =
      .ok "\x7b\"minimum\": true, \"type\": \"integer\"\x7d" := by rfl
  refine ⟨hwhole, htruth, hplain, hsame.mp (hwholeKey.trans hkey.symm), fun h => ?_⟩
  have hkeys := hother.mpr h
  rw [htruthKey, hkey] at hkeys
  exact absurd (Except.ok.inj hkeys) (by decide)

end Schema

end OpenApiClient

import OpenApiClient.Document.Access
import Mathlib.Data.List.Forall2

/-! # What a look into a value gives

A look that succeeds tells the kind of the value. A look that fails ends all the same: no look by
itself goes on without an end. -/
namespace OpenApiClient

variable {α β : Type}

theorem except_bind_ok_iff {x : Except Fault α} {f : α → Except Fault β} {b : β} :
    x >>= f = .ok b ↔ ∃ a, x = .ok a ∧ f a = .ok b := by
  cases x <;> simp [bind, Except.bind]

@[simp] theorem except_pure_ok_iff {a b : α} : (pure a : Except Fault α) = .ok b ↔ a = b := by
  simp [pure, Except.pure]

theorem except_bind_error_iff {x : Except Fault α} {f : α → Except Fault β} {fault : Fault} :
    x >>= f = .error fault ↔ x = .error fault ∨ ∃ a, x = .ok a ∧ f a = .error fault := by
  cases x <;> simp [bind, Except.bind]

theorem except_map_ok_iff {ε : Type} {x : Except ε α} {f : α → β} {b : β} :
    x.map f = .ok b ↔ ∃ a, x = .ok a ∧ f a = b := by
  cases x <;> simp [Except.map]

@[simp] theorem except_pure_ne_error {a : α} {fault : Fault} :
    (pure a : Except Fault α) ≠ .error fault := by
  simp [pure, Except.pure]

theorem members_ok_iff {v : Value} {members : Members} :
    v.members = .ok members ↔ v = .mapping members := by
  cases v <;> simp [Value.members]

theorem asText_ok_iff {v : Value} {s : String} : v.asText = .ok s ↔ v = .text s := by
  unfold Value.asText
  split <;> simp_all

theorem get?_ok_iff {v : Value} {key : String} {found : Option Value} :
    v.get? key = .ok found ↔
      ∃ members, v = .mapping members ∧ Members.get? members key = found := by
  cases v <;> simp [Value.get?, Value.members, Except.map]

theorem get_ok_iff {v x : Value} {key : String} :
    v.get key = .ok x ↔
      ∃ members, v = .mapping members ∧ (Members.get? members key).getD .null = x := by
  cases v <;> simp [Value.get, Value.get?, Value.members, Except.map]

@[simp] theorem get_mapping (members : Members) (key : String) :
    (Value.mapping members).get key = .ok ((Members.get? members key).getD .null) := rfl

theorem require_ok_iff {v x : Value} {key : String} :
    v.require key = .ok x ↔
      ∃ members, v = .mapping members ∧ Members.get? members key = some x := by
  simp only [Value.require, except_bind_ok_iff, get?_ok_iff]
  constructor
  · rintro ⟨_, ⟨members, rfl, rfl⟩, h⟩
    cases hx : Members.get? members key with
    | none => simp [hx] at h
    | some y => exact ⟨members, rfl, by simpa [hx] using h⟩
  · rintro ⟨members, rfl, h⟩
    exact ⟨_, ⟨members, rfl, rfl⟩, by simp [h]⟩

theorem getD_null_eq {ms : Members} {key : String} {v : Value} (hv : v ≠ .null)
    (h : (Members.get? ms key).getD .null = v) : Members.get? ms key = some v := by
  cases hget : Members.get? ms key with
  | none => exact absurd (by simpa [hget] using h.symm) hv
  | some w => simpa [hget] using h

@[simp] theorem Value.orEmpty_mapping (ms : Members) : (mapping ms).orEmpty = mapping ms := by
  cases ms <;> rfl

@[simp] theorem Value.orEmpty_orEmpty (v : Value) : v.orEmpty.orEmpty = v.orEmpty := by
  unfold orEmpty
  by_cases h : v.isTruthy <;> simp [h]

theorem mapM_congr {f g : α → Except Fault β} {xs : List α} (h : ∀ x ∈ xs, f x = g x) :
    xs.mapM f = xs.mapM g := by
  induction xs with
  | nil => rfl
  | cons x rest ih =>
    obtain ⟨hx, hrest⟩ := List.forall_mem_cons.mp h
    rw [List.mapM_cons, List.mapM_cons, hx, ih hrest]

theorem bind_eq_map {γ : Type} {x : Except Fault α} {f : α → Except Fault β}
    {f' : α → Except Fault γ} {h : β → γ} (hf : ∀ a, f' a = (f a).map h) :
    (x >>= f') = (x >>= f).map h := by
  cases x with
  | error fault => rfl
  | ok a => exact hf a

/-- A map over answers moves through a step when it moves through what follows on each answer. -/
theorem bind_map {γ δ : Type} {x : Except Fault α} {g : α → β} {f : α → Except Fault γ}
    {f' : β → Except Fault δ} {h : γ → δ} (hf : ∀ a, x = .ok a → f' (g a) = (f a).map h) :
    (x.map g >>= f') = (x >>= f).map h := by
  cases x with
  | error fault => rfl
  | ok a => exact hf a rfl

theorem mapM_map {γ δ : Type} {f : α → Except Fault β} {f' : γ → Except Fault δ} {g : α → γ}
    {h : β → δ} {xs : List α} (hf : ∀ x ∈ xs, f' (g x) = (f x).map h) :
    (xs.map g).mapM f' = (xs.mapM f).map (List.map h) := by
  induction xs with
  | nil => rfl
  | cons x rest ih =>
    obtain ⟨hx, hrest⟩ := List.forall_mem_cons.mp hf
    rw [List.map_cons, List.mapM_cons, List.mapM_cons, hx, ih hrest]
    exact bind_map fun _ _ => bind_map fun _ _ => rfl

theorem foldlM_map {γ δ : Type} {f : β → α → Except Fault β} {f' : δ → γ → Except Fault δ}
    {g : α → γ} {h : β → δ} {xs : List α}
    (hf : ∀ x ∈ xs, ∀ b, f' (h b) (g x) = (f b x).map h) (b : β) :
    (xs.map g).foldlM f' (h b) = (xs.foldlM f b).map h := by
  induction xs generalizing b with
  | nil => rfl
  | cons x rest ih =>
    obtain ⟨hx, hrest⟩ := List.forall_mem_cons.mp hf
    rw [List.map_cons, List.foldlM_cons, List.foldlM_cons, hx]
    exact bind_map fun c _ => ih hrest c

theorem exists_of_forall₂ {R : α → β → Prop} {xs : List α} {ys : List β}
    (h : List.Forall₂ R xs ys) : (∀ x ∈ xs, ∃ y ∈ ys, R x y) ∧ ∀ y ∈ ys, ∃ x ∈ xs, R x y := by
  induction h with
  | nil => simp
  | cons hxy _ ih =>
    refine ⟨List.forall_mem_cons.mpr ⟨⟨_, List.mem_cons_self, hxy⟩, fun x hx => ?_⟩,
      List.forall_mem_cons.mpr ⟨⟨_, List.mem_cons_self, hxy⟩, fun y hy => ?_⟩⟩
    · obtain ⟨y, hy, hxy⟩ := ih.1 x hx
      exact ⟨y, List.mem_cons_of_mem _ hy, hxy⟩
    · obtain ⟨x, hx, hxy⟩ := ih.2 y hy
      exact ⟨x, List.mem_cons_of_mem _ hx, hxy⟩

theorem exists_forall₂ {R : α → β → Prop} {xs : List α} (h : ∀ x ∈ xs, ∃ y, R x y) :
    ∃ ys, List.Forall₂ R xs ys := by
  induction xs with
  | nil => exact ⟨[], .nil⟩
  | cons x rest ih =>
    obtain ⟨⟨y, hy⟩, hrest⟩ := List.forall_mem_cons.mp h
    obtain ⟨ys, hys⟩ := ih hrest
    exact ⟨y :: ys, .cons hy hys⟩

theorem mapM_ok_iff_forall₂ {f : α → Except Fault β} {xs : List α} {ys : List β} :
    xs.mapM f = .ok ys ↔ List.Forall₂ (fun x y => f x = .ok y) xs ys := by
  induction xs generalizing ys with
  | nil => cases ys <;> simp [pure, Except.pure]
  | cons x xs ih =>
    simp only [List.mapM_cons, except_bind_ok_iff, except_pure_ok_iff, ih]
    constructor
    · rintro ⟨y, hy, rest, hrest, rfl⟩
      exact .cons hy hrest
    · rintro (_ | ⟨hy, hrest⟩)
      exact ⟨_, hy, _, hrest, rfl⟩

theorem exists_mapM_ok {f : α → Except Fault β} {xs : List α}
    (h : ∀ x ∈ xs, ∃ y, f x = .ok y) : ∃ ys, xs.mapM f = .ok ys := by
  obtain ⟨ys, hys⟩ := exists_forall₂ h
  exact ⟨ys, mapM_ok_iff_forall₂.mpr hys⟩

/-- A list that succeeds at each of its members, with something known of each answer. -/
theorem exists_mapM_ok_map {γ : Type} {f : α → Except Fault β} {g : β → γ} {k : α → γ}
    {xs : List α} (h : ∀ x ∈ xs, ∃ y, f x = .ok y ∧ g y = k x) :
    ∃ ys, xs.mapM f = .ok ys ∧ ys.map g = xs.map k := by
  induction xs with
  | nil => exact ⟨[], rfl, rfl⟩
  | cons x xs ih =>
    obtain ⟨⟨y, hy, hk⟩, hrest⟩ := List.forall_mem_cons.mp h
    obtain ⟨ys, hys, hmap⟩ := ih hrest
    exact ⟨y :: ys, by rw [List.mapM_cons, hy, hys]; rfl, by rw [List.map_cons, hk, hmap]; rfl⟩

theorem foldlM_ok_step {f : β → α → Except Fault β} {xs : List α} {b c : β}
    (h : xs.foldlM f b = .ok c) : ∀ x ∈ xs, ∃ b c, f b x = .ok c := by
  induction xs generalizing b with
  | nil => simp
  | cons x xs ih =>
    simp only [List.foldlM_cons, except_bind_ok_iff] at h
    obtain ⟨d, hd, hrest⟩ := h
    exact List.forall_mem_cons.mpr ⟨⟨b, d, hd⟩, ih hrest⟩

/-- What holds at the start of a fold and is kept by its steps holds at its end. -/
theorem foldlM_ok_invariant {I : β → Prop} {f : β → α → Except Fault β} {xs : List α} {b c : β}
    (hstart : I b) (hstep : ∀ x ∈ xs, ∀ b c, I b → f b x = .ok c → I c)
    (h : xs.foldlM f b = .ok c) : I c := by
  induction xs generalizing b with
  | nil =>
    simp only [List.foldlM_nil, except_pure_ok_iff] at h
    exact h ▸ hstart
  | cons x xs ih =>
    simp only [List.foldlM_cons, except_bind_ok_iff] at h
    obtain ⟨d, hd, hrest⟩ := h
    exact ih (hstep x List.mem_cons_self b d hstart hd)
      (fun y hy => hstep y (List.mem_cons_of_mem _ hy)) hrest

theorem foldlM_error_iff {f : β → α → Except Fault β} {xs : List α} {b : β} {fault : Fault} :
    xs.foldlM f b = .error fault ↔ ∃ before x after c, xs = before ++ x :: after ∧
      before.foldlM f b = .ok c ∧ f c x = .error fault := by
  constructor
  · intro h
    induction xs generalizing b with
    | nil => simp at h
    | cons x xs ih =>
      simp only [List.foldlM_cons, except_bind_error_iff] at h
      rcases h with h | ⟨c, hc, h⟩
      · exact ⟨[], x, xs, b, rfl, rfl, h⟩
      · obtain ⟨before, y, after, d, rfl, hbefore, hd⟩ := ih h
        refine ⟨x :: before, y, after, d, rfl, ?_, hd⟩
        rw [List.foldlM_cons, hc]
        exact hbefore
  · rintro ⟨before, x, after, c, rfl, hbefore, hx⟩
    have hstep : (x :: after).foldlM f c = .error fault := by
      rw [List.foldlM_cons, hx]
      rfl
    rw [List.foldlM_append, hbefore]
    exact hstep

theorem foldlM_error {f : β → α → Except Fault β} {xs : List α} {b : β} {fault : Fault}
    (h : xs.foldlM f b = .error fault) : ∃ x ∈ xs, ∃ c, f c x = .error fault := by
  obtain ⟨before, x, after, c, rfl, -, hc⟩ := foldlM_error_iff.mp h
  exact ⟨x, by simp, c, hc⟩

theorem exists_mem_of_mapM_ok {f : α → Except Fault β} {xs : List α} {ys : List β}
    (h : xs.mapM f = .ok ys) {y : β} (hy : y ∈ ys) : ∃ x ∈ xs, f x = .ok y :=
  (exists_of_forall₂ (mapM_ok_iff_forall₂.mp h)).2 y hy

private theorem filterAuxM_eq (f : α → Except Fault Bool) (xs acc : List α) :
    xs.filterAuxM f acc = (xs.filterAuxM f []).map (· ++ acc) := by
  induction xs generalizing acc with
  | nil => rfl
  | cons x xs ih =>
    cases hx : f x with
    | error fault => simp [List.filterAuxM, hx, bind, Except.bind, Except.map]
    | ok keep =>
      simp only [List.filterAuxM, hx, bind, Except.bind]
      rw [ih (bif keep then x :: acc else acc), ih (bif keep then [x] else [])]
      cases xs.filterAuxM f [] <;> cases keep <;> simp [Except.map]

@[simp] theorem filterM_nil (f : α → Except Fault Bool) : ([] : List α).filterM f = .ok [] := rfl

theorem filterM_cons (f : α → Except Fault Bool) (x : α) (xs : List α) :
    (x :: xs).filterM f = f x >>= fun keep => xs.filterM f >>= fun rest =>
      pure (if keep then x :: rest else rest) := by
  cases hx : f x with
  | error fault => simp [List.filterM, List.filterAuxM, hx, bind, Except.bind]
  | ok keep =>
    simp only [List.filterM, List.filterAuxM, hx, bind, Except.bind]
    rw [filterAuxM_eq f xs]
    cases xs.filterAuxM f [] <;> cases keep <;> simp [Except.map, pure, Except.pure]

theorem filterM_map {f : α → Except Fault Bool} {f' : β → Except Fault Bool} {g : α → β}
    {xs : List α} (hf : ∀ x ∈ xs, f' (g x) = f x) :
    (xs.map g).filterM f' = (xs.filterM f).map (List.map g) := by
  induction xs with
  | nil => rfl
  | cons x rest ih =>
    obtain ⟨hx, hrest⟩ := List.forall_mem_cons.mp hf
    rw [List.map_cons, filterM_cons, filterM_cons, hx, ih hrest]
    cases f x with
    | error fault => rfl
    | ok keep =>
      refine bind_map fun kept _ => ?_
      cases keep <;> rfl

theorem filterM_ok {f : α → Except Fault Bool} {xs ys : List α} (h : xs.filterM f = .ok ys) :
    (∀ x ∈ xs, ∃ keep, f x = .ok keep) ∧ ys = xs.filter fun x => f x = .ok true := by
  induction xs generalizing ys with
  | nil => simp_all
  | cons x xs ih =>
    simp only [filterM_cons, except_bind_ok_iff, except_pure_ok_iff] at h
    obtain ⟨keep, hkeep, rest, hrest, rfl⟩ := h
    obtain ⟨hall, rfl⟩ := ih hrest
    refine ⟨List.forall_mem_cons.mpr ⟨⟨keep, hkeep⟩, hall⟩, ?_⟩
    cases keep <;> simp [hkeep]

/-- Whether an answer comes at all, be it a fault. -/
def Ends (x : Except Fault α) : Prop := x ≠ .error .endless

@[simp] theorem Ends.ok (a : α) : Ends (.ok a) := by simp [Ends]

/-- Whether all faults that can come instead of an answer satisfy a condition. -/
def FailsBy (P : Fault → Prop) (x : Except Fault α) : Prop := ∀ fault, x = .error fault → P fault

namespace FailsBy

variable {P Q : Fault → Prop} {x : Except Fault α}

theorem ok (a : α) : FailsBy P (.ok a) := nofun

theorem pure (a : α) : FailsBy P (Pure.pure a : Except Fault α) := nofun

theorem error {fault : Fault} (h : P fault) : FailsBy P (.error fault : Except Fault α) := by
  rintro _ ⟨⟩
  exact h

theorem mono (hx : FailsBy P x) (h : ∀ fault, P fault → Q fault) : FailsBy Q x :=
  fun fault hfault => h fault (hx fault hfault)

theorem bind {f : α → Except Fault β} (hx : FailsBy P x) (hf : ∀ a, FailsBy P (f a)) :
    FailsBy P (x >>= f) := by
  intro fault h
  rcases except_bind_error_iff.mp h with h | ⟨a, -, h⟩
  · exact hx fault h
  · exact hf a fault h

theorem map {f : α → β} (hx : FailsBy P x) : FailsBy P (x.map f) := by
  cases x with
  | error fault => exact error (hx fault rfl)
  | ok a => exact ok _

theorem mapM {f : α → Except Fault β} (hf : ∀ a, FailsBy P (f a)) (xs : List α) :
    FailsBy P (xs.mapM f) := by
  induction xs with
  | nil => exact pure _
  | cons x xs ih =>
    rw [List.mapM_cons]
    exact (hf x).bind fun _ => ih.bind fun _ => pure _

theorem filterM {f : α → Except Fault Bool} (hf : ∀ a, FailsBy P (f a)) (xs : List α) :
    FailsBy P (xs.filterM f) := by
  induction xs with
  | nil => exact ok _
  | cons x xs ih =>
    rw [filterM_cons]
    exact (hf x).bind fun _ => ih.bind fun _ => pure _

theorem foldlM {f : β → α → Except Fault β} (hf : ∀ b a, FailsBy P (f b a)) (xs : List α) (b : β) :
    FailsBy P (xs.foldlM f b) := by
  intro fault h
  obtain ⟨x, -, c, hc⟩ := foldlM_error h
  exact hf c x fault hc

end FailsBy

inductive Fault.IsOfLooks : Fault → Prop
  | wrongType : IsOfLooks .wrongType
  | missingEntry : IsOfLooks .missingEntry
  | badValue : IsOfLooks .badValue
  | dangling (reference : Value) : IsOfLooks (.of (.danglingReference reference))

abbrev Looks (x : Except Fault α) : Prop := FailsBy Fault.IsOfLooks x

/-- Looks have an end. -/
theorem FailsBy.ends {x : Except Fault α} (hx : Looks x) : Ends x :=
  fun h => nomatch hx .endless h

namespace Value

theorem members_looks (v : Value) : Looks v.members := by
  cases v with
  | mapping ms => exact .ok _
  | _ => exact .error .wrongType

theorem asText_looks (v : Value) : Looks v.asText := by
  unfold asText
  split
  · exact .ok _
  · exact .error .wrongType

theorem asScalar_looks (v : Value) : Looks v.asScalar := by
  cases v with
  | scalar s => exact .ok _
  | _ => exact .error .wrongType

theorem get?_looks (v : Value) (key : String) : Looks (v.get? key) := v.members_looks.map

theorem get_looks (v : Value) (key : String) : Looks (v.get key) := (v.get?_looks key).map

theorem require_looks (v : Value) (key : String) : Looks (v.require key) := by
  refine (v.get?_looks key).bind fun found => ?_
  cases found with
  | none => exact .error .missingEntry
  | some found => exact .ok _

theorem mentions_looks (v : Value) (key : String) : Looks (v.mentions key) := by
  unfold mentions
  split
  · exact .ok _
  · exact .ok _
  · exact .ok _
  · exact .error .wrongType

theorem elements_looks (v : Value) : Looks v.elements := by
  unfold elements
  split
  · exact .ok _
  · exact .ok _
  · exact .ok _
  · exact .error .wrongType

private theorem asPair_looks (v : Value) : Looks v.asPair := by
  refine v.elements_looks.bind fun parts => ?_
  split
  · exact (asScalar_looks _).bind fun _ => .pure _
  · exact .error .badValue

theorem entries_looks (v : Value) : Looks v.entries := by
  unfold entries
  split
  · exact .ok _
  · exact v.elements_looks.bind fun parts => .mapM asPair_looks parts

end Value

end OpenApiClient

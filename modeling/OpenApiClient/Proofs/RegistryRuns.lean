import OpenApiClient.Schema.Resolve

/-! # What a step on the registry gives

A step ends with an answer or with a fault, and in both cases with a registry. The lemmas say how
the end of a step is made of the ends of its parts; nothing after this module opens the monad. -/
namespace OpenApiClient.Schema

variable {α β : Type}

/-- How a step ends from a registry. -/
def RegistryM.outcome (m : RegistryM α) (r : Registry) : Except Fault α × Registry := m.run r

namespace RegistryM

@[simp] theorem outcome_pure (a : α) (r : Registry) : outcome (pure a) r = (.ok a, r) := rfl

@[simp] theorem outcome_throw (e : Fault) (r : Registry) :
    outcome (throw e : RegistryM α) r = (.error e, r) := rfl

@[simp] theorem outcome_lift (x : Except Fault α) (r : Registry) :
    outcome (liftM x : RegistryM α) r = (x, r) := rfl

@[simp] theorem outcome_get (r : Registry) : outcome get r = (.ok r, r) := rfl

@[simp] theorem outcome_modify (f : Registry → Registry) (r : Registry) :
    outcome (modify f) r = (.ok (), f r) := rfl

theorem outcome_bind (m : RegistryM α) (f : α → RegistryM β) (r : Registry) :
    outcome (m >>= f) r =
      match outcome m r with
      | (.ok a, s) => outcome (f a) s
      | (.error e, s) => (.error e, s) := by
  simp only [outcome, bind, ExceptT.bind, ExceptT.run, ExceptT.mk, ExceptT.bindCont, StateT.bind]
  cases h : m r with
  | mk x s => cases x <;> rfl

private theorem outcome_adapt (f : Fault → Fault) (m : RegistryM α) (r : Registry) :
    outcome (ExceptT.adapt f m) r = ((outcome m r).1.mapError f, (outcome m r).2) := rfl

theorem lift_ok_bind (a : α) (f : α → RegistryM β) :
    ((liftM (.ok a : Except Fault α) : RegistryM α) >>= f) = f a := rfl

theorem outcome_bind_of_ok {m : RegistryM α} {r s : Registry} {a : α}
    (h : outcome m r = (.ok a, s)) (f : α → RegistryM β) :
    outcome (m >>= f) r = outcome (f a) s := by
  rw [outcome_bind, h]

theorem bind_ok_iff {m : RegistryM α} {f : α → RegistryM β} {r t : Registry} {b : β} :
    outcome (m >>= f) r = (.ok b, t) ↔
      ∃ a s, outcome m r = (.ok a, s) ∧ outcome (f a) s = (.ok b, t) := by
  rw [outcome_bind]
  cases h : outcome m r with
  | mk x s => cases x <;> simp [and_assoc]

theorem bind_error_iff {m : RegistryM α} {f : α → RegistryM β} {r t : Registry} {e : Fault} :
    outcome (m >>= f) r = (.error e, t) ↔
      outcome m r = (.error e, t) ∨
        ∃ a s, outcome m r = (.ok a, s) ∧ outcome (f a) s = (.error e, t) := by
  rw [outcome_bind]
  cases h : outcome m r with
  | mk x s => cases x <;> simp [and_assoc]

theorem pure_ok_iff {a b : α} {r t : Registry} : outcome (pure a) r = (.ok b, t) ↔ a = b ∧ r = t := by
  simp

theorem lift_bind_ok_iff {x : Except Fault α} {f : α → RegistryM β} {r t : Registry} {b : β} :
    outcome (liftM x >>= f) r = (.ok b, t) ↔ ∃ a, x = .ok a ∧ outcome (f a) r = (.ok b, t) := by
  rw [outcome_bind, outcome_lift]
  cases x <;> simp

theorem lift_bind_error_iff {x : Except Fault α} {f : α → RegistryM β} {r t : Registry} {e : Fault} :
    outcome (liftM x >>= f) r = (.error e, t) ↔
      (x = .error e ∧ t = r) ∨ ∃ a, x = .ok a ∧ outcome (f a) r = (.error e, t) := by
  rw [outcome_bind, outcome_lift]
  cases x <;> simp [eq_comm]

theorem adapt_ok_iff {f : Fault → Fault} {m : RegistryM α} {r t : Registry} {a : α} :
    outcome (ExceptT.adapt f m) r = (.ok a, t) ↔ outcome m r = (.ok a, t) := by
  rw [outcome_adapt]
  cases outcome m r with
  | mk x s =>
    cases x with
    | ok b => exact .rfl
    | error e => exact ⟨(nomatch ·), (nomatch ·)⟩

variable {f : α → RegistryM β} {r t : Registry}

@[simp] theorem mapM_nil_outcome : outcome (([] : List α).mapM f) r = (.ok [], r) := rfl

theorem mapM_cons_ok_iff {p : α} {ps : List α} {as : List β} :
    outcome ((p :: ps).mapM f) r = (.ok as, t) ↔
      ∃ a s rest, outcome (f p) r = (.ok a, s) ∧ outcome (ps.mapM f) s = (.ok rest, t) ∧
        as = a :: rest := by
  simp only [List.mapM_cons, bind_ok_iff, pure_ok_iff]
  constructor
  · rintro ⟨a, s, ha, rest, s', hrest, rfl, rfl⟩
    exact ⟨a, s, rest, ha, hrest, rfl⟩
  · rintro ⟨a, s, rest, ha, hrest, rfl⟩
    exact ⟨a, s, ha, rest, t, hrest, rfl, rfl⟩

/-- A list that fails, fails at one of its members, when all before it are done. -/
theorem mapM_error {ps : List α} {e : Fault} (h : outcome (ps.mapM f) r = (.error e, t)) :
    ∃ before p after as s, ps = before ++ p :: after ∧
      outcome (before.mapM f) r = (.ok as, s) ∧ outcome (f p) s = (.error e, t) := by
  induction ps generalizing r with
  | nil => simp at h
  | cons p ps ih =>
    simp only [List.mapM_cons, bind_error_iff, outcome_pure, Prod.mk.injEq, reduceCtorEq,
      false_and, and_false, exists_false, or_false] at h
    rcases h with h | ⟨a, s, ha, hrest⟩
    · exact ⟨[], p, ps, [], r, rfl, rfl, h⟩
    · obtain ⟨before, q, after, as, s', rfl, hbefore, hq⟩ := ih hrest
      exact ⟨p :: before, q, after, a :: as, s', rfl,
        mapM_cons_ok_iff.mpr ⟨a, s, as, ha, hbefore, rfl⟩, hq⟩

theorem length_of_mapM_ok {ps : List α} {as : List β}
    (h : outcome (ps.mapM f) r = (.ok as, t)) : as.length = ps.length := by
  induction ps generalizing r as with
  | nil =>
    cases h
    rfl
  | cons p ps ih =>
    obtain ⟨a, s, rest, -, hrest, rfl⟩ := mapM_cons_ok_iff.mp h
    rw [List.length_cons, List.length_cons, ih hrest]

theorem mapM_append_ok_iff {ps qs : List α} {as : List β} :
    outcome ((ps ++ qs).mapM f) r = (.ok as, t) ↔
      ∃ bs s cs, outcome (ps.mapM f) r = (.ok bs, s) ∧ outcome (qs.mapM f) s = (.ok cs, t) ∧
        as = bs ++ cs := by
  simp only [List.mapM_append, bind_ok_iff, pure_ok_iff]
  constructor
  · rintro ⟨bs, s, hbs, cs, s', hcs, rfl, rfl⟩
    exact ⟨bs, s, cs, hbs, hcs, rfl⟩
  · rintro ⟨bs, s, cs, hbs, hcs, rfl⟩
    exact ⟨bs, s, hbs, cs, t, hcs, rfl, rfl⟩

/-- A fold fails where one of its steps does, behind steps that succeed. -/
theorem foldlM_fault_iff {step : β → α → RegistryM β} {as : List α} {b : β} {e : Fault} :
    outcome (as.foldlM step b) r = (.error e, t) ↔
      ∃ before a after c s, as = before ++ a :: after ∧
        outcome (before.foldlM step b) r = (.ok c, s) ∧ outcome (step c a) s = (.error e, t) := by
  constructor
  · intro h
    induction as generalizing b r with
    | nil => simp at h
    | cons a as ih =>
      simp only [List.foldlM_cons, bind_error_iff] at h
      rcases h with h | ⟨c, s, hc, h⟩
      · exact ⟨[], a, as, b, r, rfl, rfl, h⟩
      · obtain ⟨before, last, after, d, s', rfl, hbefore, hlast⟩ := ih h
        refine ⟨a :: before, last, after, d, s', rfl, ?_, hlast⟩
        rw [List.foldlM_cons, outcome_bind_of_ok hc]
        exact hbefore
  · rintro ⟨before, a, after, c, s, rfl, hbefore, ha⟩
    rw [List.foldlM_append, outcome_bind_of_ok hbefore, List.foldlM_cons]
    exact bind_error_iff.mpr (.inl ha)

/-- What every step of a fold keeps holds in the end. -/
theorem foldlM_invariant {step : β → α → RegistryM β} {P : β → Prop}
    (hstep : ∀ b a b' s s', P b → outcome (step b a) s = (.ok b', s') → P b') {as : List α}
    {b b' : β} (hb : P b) (h : outcome (as.foldlM step b) r = (.ok b', t)) : P b' := by
  induction as generalizing b r with
  | nil =>
    obtain ⟨rfl, -⟩ := pure_ok_iff.mp h
    exact hb
  | cons a as ih =>
    simp only [List.foldlM_cons, bind_ok_iff] at h
    obtain ⟨next, s, hnext, hrest⟩ := h
    exact ih (hstep _ _ _ _ _ hb hnext) hrest

end RegistryM

end OpenApiClient.Schema

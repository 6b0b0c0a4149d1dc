import OpenApiClient.Proofs.Looks
import OpenApiClient.Schema.Flatten
import Mathlib.Logic.Relation

/-! # Flattening without a watch

Flattening watches for a schema that is met again within itself. The watch saves steps and changes no
answer: without it such a schema is flattened over and over, at whatever depth, until no fuel is
left. -/
namespace OpenApiClient.Schema

open Relation

variable {document schema last next : Value} {active : List Value} {fuel : Nat}

def gatherWith (flattenSub : Value → Except Fault Value) (subs : List Value) : Except Fault Flat :=
  subs.foldlM (fun f sub => do f.add (← flattenSub sub)) {}

def flattenEnd (flattenSub : Value → Except Fault Value) (last : Value) : Except Fault Value := do
  if ← last.mentions "allOf" then
    let subs ← (← last.require "allOf").elements
    return (← (← gatherWith flattenSub subs).add last).toSchema
  else return last

/-- A schema in terms of properties and required names, with no watch for schemas met again. -/
def flattenFreely (document : Value) : (fuel : Nat) → Value → Except Fault Value
  | 0, _ => .error .endless
  | fuel + 1, schema => do
    flattenEnd (flattenFreely document fuel) (← followRefs document (document.weight + 2) [] schema)

theorem flattenWith_succ : flattenWith document (fuel + 1) active schema =
    followRefs document (document.weight + 2) [] schema >>= fun last =>
      if last.mentions "allOf" = .ok true ∧ last ∈ active then .error .endless
      else flattenEnd (flattenWith document fuel (last :: active)) last := by
  rw [flattenWith]
  refine bind_congr fun last => ?_
  rw [flattenEnd]
  cases last.mentions "allOf" with
  | error fault => simp [bind, Except.bind]
  | ok mentions =>
    cases mentions with
    | false => simp [bind, Except.bind]
    | true =>
      by_cases hactive : last ∈ active
      · simp [hactive, bind, Except.bind, throw, throwThe, MonadExceptOf.throw]
      · simp [hactive, bind, Except.bind, gatherWith]

/-! ## Fuel -/

section

variable {α β : Type} {xs : List α}

/-- What follows on a step may be replaced where the whole ends. -/
theorem bind_stable {x : Except Fault α} {f g : α → Except Fault β}
    (h : ∀ a, Ends (f a) → g a = f a) (hends : Ends (x >>= f)) : (x >>= g) = (x >>= f) := by
  cases x with
  | error fault => rfl
  | ok a => exact h a hends

theorem bind_stable_left {x y : Except Fault α} {f : α → Except Fault β} (h : Ends x → y = x)
    (hends : Ends (x >>= f)) : (y >>= f) = (x >>= f) := by
  cases x with
  | error fault =>
    have hx : Ends (Except.error fault : Except Fault α) := by
      rintro ⟨⟩
      exact hends rfl
    rw [h hx]
  | ok a => rw [h (.ok a)]

private theorem foldlM_stable {f g : β → α → Except Fault β} {b : β}
    (h : ∀ b, ∀ x ∈ xs, Ends (f b x) → g b x = f b x) (hends : Ends (xs.foldlM f b)) :
    xs.foldlM g b = xs.foldlM f b := by
  induction xs generalizing b with
  | nil => rfl
  | cons x rest ih =>
    rw [List.foldlM_cons] at hends ⊢
    have hrest : (f b x >>= fun c => rest.foldlM g c) = (f b x >>= fun c => rest.foldlM f c) :=
      bind_stable (fun c => ih fun b y hy => h b y (List.mem_cons_of_mem _ hy)) hends
    have hfirst : (g b x >>= fun c => rest.foldlM g c) = (f b x >>= fun c => rest.foldlM g c) :=
      bind_stable_left (h b x List.mem_cons_self) (hrest ▸ hends)
    rw [List.foldlM_cons, hfirst, hrest]

/-- The steps of a fold may be replaced one by one, each where those before it succeed. -/
theorem foldlM_congr_stepwise {f g : β → α → Except Fault β} {b : β}
    (h : ∀ (before : List α) (x : α) (after : List α), xs = before ++ x :: after →
      ∀ c, before.foldlM g b = .ok c → f c x = g c x) : xs.foldlM f b = xs.foldlM g b := by
  induction xs generalizing b with
  | nil => rfl
  | cons x rest ih =>
    rw [List.foldlM_cons, List.foldlM_cons, h [] x rest rfl b rfl]
    cases hfirst : g b x with
    | error fault => rfl
    | ok c =>
      refine ih fun before y after hrest d hd => ?_
      refine h (x :: before) y after (by rw [hrest]; rfl) d ?_
      rw [List.foldlM_cons, hfirst]
      exact hd

/-- A fold that succeeds, succeeds alike when each step does or finds no end. -/
theorem foldlM_or {f g : β → α → Except Fault β} {b c : β}
    (h : ∀ x ∈ xs, ∀ b c, f b x = .ok c → g b x = .ok c ∨ g b x = .error .endless)
    (hok : xs.foldlM f b = .ok c) :
    xs.foldlM g b = .ok c ∨ xs.foldlM g b = .error .endless := by
  induction xs generalizing b with
  | nil => exact .inl hok
  | cons x rest ih =>
    obtain ⟨hx, hrest⟩ := List.forall_mem_cons.mp h
    rw [List.foldlM_cons] at hok ⊢
    obtain ⟨d, hd, hok⟩ := except_bind_ok_iff.mp hok
    rcases hx b d hd with hx | hx
    · rw [hx]
      exact ih hrest hok
    · rw [hx]
      exact .inr rfl

end

private theorem flattenEnd_of_mentions {f : Value → Except Fault Value} {all : Value}
    {subs : List Value}
    (hmentions : last.mentions "allOf" = .ok true) (hall : last.require "allOf" = .ok all)
    (hsubs : all.elements = .ok subs) : flattenEnd f last = (do
      return (← (← gatherWith f subs).add last).toSchema) := by
  simp only [flattenEnd, hmentions, hall, hsubs, bind, Except.bind, if_true]

private theorem gatherWith_stable {f g : Value → Except Fault Value} {subs : List Value}
    (h : ∀ sub, Ends (f sub) → g sub = f sub) (hends : Ends (gatherWith f subs)) :
    gatherWith g subs = gatherWith f subs :=
  foldlM_stable (fun _ sub _ => bind_stable_left (h sub)) hends

private theorem flattenEnd_stable {f g : Value → Except Fault Value}
    (h : ∀ sub, Ends (f sub) → g sub = f sub) (hends : Ends (flattenEnd f last)) :
    flattenEnd g last = flattenEnd f last := by
  refine bind_stable (fun mentions hends => ?_) hends
  cases mentions with
  | false => rfl
  | true =>
    exact bind_stable (fun all => bind_stable fun subs => bind_stable_left (gatherWith_stable h))
      hends

/-- With more fuel an answer stays the same, unless it was that there is no end. -/
theorem flattenFreely_stable {more : Nat} (hle : fuel ≤ more)
    (h : Ends (flattenFreely document fuel schema)) :
    flattenFreely document more schema = flattenFreely document fuel schema := by
  induction fuel generalizing schema more with
  | zero => exact absurd rfl h
  | succ fuel ih =>
    obtain ⟨more, rfl⟩ : ∃ n, more = n + 1 := ⟨more - 1, by omega⟩
    rw [flattenFreely, flattenFreely] at *
    cases hlast : followRefs document (document.weight + 2) [] schema with
    | error fault => rfl
    | ok last =>
      rw [hlast] at h
      exact flattenEnd_stable (fun sub hsub => ih (Nat.le_of_succ_le_succ hle) hsub) h

/-- What flattens at some depth flattens to the same at every depth, or finds no end there. -/
theorem flattenFreely_or {flat : Value} (h : flattenFreely document fuel schema = .ok flat)
    (other : Nat) : flattenFreely document other schema = .ok flat ∨
      flattenFreely document other schema = .error .endless := by
  refine or_iff_not_imp_right.mpr fun hends => ?_
  rcases Nat.le_total fuel other with hle | hle
  · rw [flattenFreely_stable hle (h ▸ Ends.ok _), h]
  · rw [← flattenFreely_stable hle hends, h]

/-! ## Schemas met again -/

def flattenEndFreely (document : Value) : (fuel : Nat) → Value → Except Fault Value
  | 0, _ => .error .endless
  | fuel + 1, last => flattenEnd (flattenFreely document fuel) last

private theorem flattenFreely_of_followRefs
    (h : followRefs document (document.weight + 2) [] schema = .ok last) :
    flattenFreely document fuel schema = flattenEndFreely document fuel last := by
  cases fuel with
  | zero => rfl
  | succ fuel => rw [flattenFreely, h]; rfl

/-- Whether the one schema has no end with one more fuel than the other has none with. -/
def Delays (document last next : Value) : Prop :=
  ∀ fuel, flattenEndFreely document fuel next = .error .endless →
    flattenEndFreely document (fuel + 1) last = .error .endless

/-- What comes back to itself has no end with any fuel. -/
theorem endless_of_delays (h : TransGen (Delays document) last last) (fuel : Nat) :
    flattenEndFreely document fuel last = .error .endless := by
  induction fuel generalizing last with
  | zero => rfl
  | succ fuel ih =>
    obtain ⟨next, hnext, hback⟩ := TransGen.head'_iff.mp h
    exact hnext fuel (ih (TransGen.tail' hback hnext))

/-- A member of `allOf` has no end before the schema that lists it, if all before it have one. -/
theorem delays_member {all sub : Value} {before after : List Value} {flat : Flat}
    (hmentions : last.mentions "allOf" = .ok true) (hall : last.require "allOf" = .ok all)
    (hsubs : all.elements = .ok (before ++ sub :: after))
    (hbefore : gatherWith (flattenFreely document fuel) before = .ok flat)
    (hnext : followRefs document (document.weight + 2) [] sub = .ok next) :
    Delays document last next := by
  intro other hendless
  have hgather : gatherWith (flattenFreely document other) (before ++ sub :: after) =
      .error .endless := by
    have hbefore' := foldlM_or (g := fun f sub => do f.add (← flattenFreely document other sub))
      (fun x _ b c hx => ?_) hbefore
    · simp only [gatherWith, List.foldlM_append, List.foldlM_cons,
        flattenFreely_of_followRefs hnext, hendless]
      rcases hbefore' with hok | hnone
      · rw [hok]
        rfl
      · rw [hnone]
        rfl
    · obtain ⟨flat, hflat, hadd⟩ := except_bind_ok_iff.mp hx
      rcases flattenFreely_or hflat other with hok | hnone
      · rw [hok]
        exact .inl hadd
      · rw [hnone]
        exact .inr rfl
  rw [flattenEndFreely, flattenEnd_of_mentions hmentions hall hsubs, hgather]
  rfl

/-- Without the watch flattening gives the same, if each schema that is watched for leads to the
one that is flattened. -/
theorem flattenWith_eq_freely
    (h : ∀ last, followRefs document (document.weight + 2) [] schema = .ok last →
      ∀ a ∈ active, TransGen (Delays document) a last) :
    flattenWith document fuel active schema = flattenFreely document fuel schema := by
  induction fuel generalizing active schema with
  | zero => rfl
  | succ fuel ih =>
    rw [flattenWith_succ, flattenFreely]
    cases hlast : followRefs document (document.weight + 2) [] schema with
    | error fault => rfl
    | ok last =>
      have hactive := h last hlast
      simp only [bind, Except.bind]
      split
      -- What is met again leads to itself, so it has no end without the watch either.
      · rename_i hagain
        exact (endless_of_delays (hactive last hagain.2) (fuel + 1)).symm
      · rw [flattenEnd, flattenEnd]
        rcases hmentions : last.mentions "allOf" with fault | _ | _
        · rfl
        · rfl
        · rcases hall : last.require "allOf" with fault | all
          · rfl
          · rcases hsubs : all.elements with fault | subs
            · simp only [bind, Except.bind, hsubs]
            · simp only [bind, Except.bind, hsubs]
              have hgather : gatherWith (flattenWith document fuel (last :: active)) subs =
                  gatherWith (flattenFreely document fuel) subs := by
                refine foldlM_congr_stepwise fun before sub after hsplit flat hbefore => ?_
                rw [ih fun next hnext => ?_]
                have hdelays : Delays document last next :=
                  delays_member hmentions hall (hsplit ▸ hsubs) hbefore hnext
                refine List.forall_mem_cons.mpr ⟨.single hdelays, fun a ha => ?_⟩
                exact (hactive a ha).tail hdelays
              rw [hgather]

/-- Flattening without the watch gives what flattening gives. -/
theorem flatten_eq_freely (document schema : Value) : flatten document schema =
    flattenFreely document (document.weight + schema.weight + 2) schema :=
  flattenWith_eq_freely (by simp)

end OpenApiClient.Schema

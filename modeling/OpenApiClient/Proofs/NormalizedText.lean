import OpenApiClient.Proofs.CompatibilityForms

/-! # Compatibility normalization of names

A name is normalized in three steps: every character is taken apart into the ones that it stands for,
the marks behind each character are ordered by their classes, and characters are composed again with the
marks that follow. Two names are the same name if their normal forms are. -/
namespace OpenApiClient.Text

/-! ## Single characters -/

/-- What two characters compose to: the second ones, each with the first ones that take it and what they
make. -/
def composites : List (Nat × List (Nat × Nat)) :=
  upperComposites ++ lowerComposites ++ furtherComposites

def parts? (n : Nat) : Option (Nat × Nat) :=
  composites.findSome? fun (second, made) =>
    (made.find? (·.2 == n)).map fun (first, _) => (first, second)

def listed? {α : Type} (stretches : List (Nat × List α)) (n : Nat) : Option α :=
  stretches.findSome? fun (start, forms) => if start ≤ n then forms[n - start]? else none

def form? (n : Nat) : Option (List Nat) :=
  listed? letterForms n <|> listed? arabicForms n <|>
    (listed? ideographForms n).map ([·]) <|> (listed? furtherIdeographForms n).map ([·]) <|>
    (movedForms.find? fun (first, last, _) => first ≤ n && n ≤ last).map
      fun (first, _, form) => [form + (n - first)]

def isSyllable (n : Nat) : Bool := 0xac00 ≤ n && n < 0xd7a4

/-- The two or three letters of a syllable, where `n` is its number. -/
def letters (n : Nat) : List Nat :=
  [0x1100 + n / 588, 0x1161 + n % 588 / 28] ++ if n % 28 = 0 then [] else [0x11a7 + n % 28]

/-- What a character stands for, when it is taken apart so many times at most. -/
def expandWith : (depth : Nat) → Nat → List Nat
  | 0, n => [n]
  | depth + 1, n =>
    match parts? n with
    | some (first, second) => expandWith depth first ++ [second]
    | none => (form? n).getD [n]

/-- What a character stands for. No character is composed more than three times. -/
def expand (n : Nat) : List Nat :=
  if isSyllable n then letters (n - 0xac00) else expandWith 4 n

def markClass (n : Nat) : Nat :=
  ((markClasses.find? fun (_, marks) => marks.covers n).map Prod.fst).getD 0

def compose? (first second : Nat) : Option Nat :=
  if 0x1100 ≤ first ∧ first < 0x1113 ∧ 0x1161 ≤ second ∧ second < 0x1176 then
    some (0xac00 + ((first - 0x1100) * 21 + (second - 0x1161)) * 28)
  else if isSyllable first ∧ (first - 0xac00) % 28 = 0 ∧ 0x11a8 ≤ second ∧ second < 0x11c3 then
    some (first + (second - 0x11a7))
  else (composites.lookup second).bind (·.lookup first)

/-! ## Names -/

/-- A character put before others whose marks are in order: behind the marks of lower classes. -/
def place (n : Nat) : List Nat → List Nat
  | [] => [n]
  | m :: rest =>
    if 0 < markClass m ∧ markClass m < markClass n then m :: place n rest else n :: m :: rest

/-- The characters with the marks behind each in the order of their classes. -/
def arrange (ns : List Nat) : List Nat := ns.foldr place []

/-- A character composed with what follows, where `kept` are the marks that are behind it already. A mark
that has one of its own class or a higher one before it is not composed. -/
def composeFrom (n : Nat) (kept : List Nat) : List Nat → List Nat
  | [] => n :: kept
  | m :: rest =>
    let made := if kept.getLast?.all (markClass · < markClass m) then compose? n m else none
    match made with
    | some composite => composeFrom composite kept rest
    | none =>
      if markClass m = 0 then n :: (kept ++ composeFrom m [] rest)
      else composeFrom n (kept ++ [m]) rest

/-- Every character that is no mark composed with what follows. -/
def composeAll : List Nat → List Nat
  | [] => []
  | n :: rest => if markClass n = 0 then composeFrom n [] rest else n :: composeAll rest

def normalCodes (ns : List Nat) : List Nat := composeAll (arrange (ns.flatMap expand))

def normalName (s : String) : String :=
  String.ofList ((normalCodes (s.toList.map Char.toNat)).map Char.ofNat)

example : normalName "e\u0301t\u00e9" = "\u00e9t\u00e9" ∧ normalName "\ufb01" = "fi" := by
  decide +kernel

/-! ## Characters that stay -/

variable {n m k : Nat} {ns kept : List Nat}

theorem composites_bounds :
    ∀ e ∈ composites, 0x300 ≤ e.1 ∧ ∀ p ∈ e.2, p.1 ≠ 0x5f ∧ 0xc0 ≤ p.2 := by decide

private theorem form_bounds : (∀ e ∈ letterForms, 0xa0 ≤ e.1) ∧ (∀ e ∈ arabicForms, 0xa0 ≤ e.1) ∧
    (∀ e ∈ ideographForms, 0xa0 ≤ e.1) ∧ (∀ e ∈ furtherIdeographForms, 0xa0 ≤ e.1) ∧
    ∀ e ∈ movedForms, 0xa0 ≤ e.1 := by decide +kernel

private theorem markClasses_bounds : ∀ e ∈ markClasses, ∀ i ∈ e.2, 0x300 ≤ i.1 := by decide +kernel

private theorem parts?_eq_none (h : n < 0xa0) : parts? n = none := by
  apply List.findSome?_eq_none_iff.mpr
  intro e he
  have hmade : e.2.find? (·.2 == n) = none := by
    apply List.find?_eq_none.mpr
    intro p hp
    have hbound := ((composites_bounds e he).2 p hp).2
    simp only [beq_iff_eq]
    omega
  simp [hmade]

private theorem listed?_eq_none {α : Type} {stretches : List (Nat × List α)}
    (hbounds : ∀ e ∈ stretches, 0xa0 ≤ e.1) (h : n < 0xa0) : listed? stretches n = none := by
  apply List.findSome?_eq_none_iff.mpr
  intro e he
  have hbound := hbounds e he
  exact if_neg (by omega)

private theorem form?_eq_none (h : n < 0xa0) : form? n = none := by
  obtain ⟨hletters, harabic, hideographs, hfurther, hmoved⟩ := form_bounds
  have hfind : movedForms.find? (fun (first, last, _) => first ≤ n && n ≤ last) = none := by
    apply List.find?_eq_none.mpr
    intro e he
    have hbound := hmoved e he
    simp only [Bool.and_eq_true, decide_eq_true_eq]
    omega
  simp only [form?, listed?_eq_none hletters h, listed?_eq_none harabic h,
    listed?_eq_none hideographs h, listed?_eq_none hfurther h, hfind]
  rfl

theorem expand_eq_singleton (h : n < 0xa0) : expand n = [n] := by
  have hsyllable : isSyllable n = false := by
    simp only [isSyllable, Bool.and_eq_false_iff, decide_eq_false_iff_not]
    omega
  simp [expand, hsyllable, expandWith, parts?_eq_none h, form?_eq_none h]

private theorem markClass_eq_zero (h : n < 0x300) : markClass n = 0 := by
  have hfind : markClasses.find? (fun (_, marks) => marks.covers n) = none := by
    apply List.find?_eq_none.mpr
    intro e he hcovers
    obtain ⟨i, hi, hle, -⟩ := Intervals.exists_of_covers hcovers
    have hbound := markClasses_bounds e he i hi
    omega
  rw [markClass, hfind]
  rfl

/-! ## Characters that are composed -/

private theorem mem_of_lookup_code {α : Type} {entries : List (Nat × α)} {a : α}
    (h : entries.lookup n = some a) : (n, a) ∈ entries := by
  obtain ⟨before, after, rfl, -⟩ := List.lookup_eq_some_iff.mp h
  simp

/-- Only a mark or a letter of Hangul composes with what is before it, which is no underscore, and what
they make is none of the first characters. -/
theorem compose?_bounds (h : compose? n m = some k) : 0x300 ≤ m ∧ n ≠ 0x5f ∧ 0xc0 ≤ k := by
  unfold compose? at h
  split at h
  · have hk := Option.some.inj h
    omega
  split at h
  · rename_i hsyllable
    have hn : 0xac00 ≤ n := by
      have hrange := hsyllable.1
      simp only [isSyllable, Bool.and_eq_true, decide_eq_true_eq] at hrange
      exact hrange.1
    have hk := Option.some.inj h
    omega
  · obtain ⟨made, hmade, hk⟩ := Option.bind_eq_some_iff.mp h
    obtain ⟨hm, hpairs⟩ := composites_bounds _ (mem_of_lookup_code hmade)
    exact ⟨hm, hpairs _ (mem_of_lookup_code hk)⟩

private theorem compose?_eq_none (h : m < 0x300) (n : Nat) : compose? n m = none := by
  apply Option.eq_none_iff_forall_not_mem.mpr
  intro k hk
  have hbound := (compose?_bounds hk).1
  omega

/-! ## Names that stay -/

private theorem place_eq_cons (h : markClass n = 0) (ns : List Nat) : place n ns = n :: ns := by
  cases ns with
  | nil => rfl
  | cons m rest => rw [place, if_neg (by omega)]

private theorem arrange_cons (h : markClass n = 0) (ns : List Nat) :
    arrange (n :: ns) = n :: arrange ns :=
  place_eq_cons h _

theorem composeFrom_head (n : Nat) (kept ns : List Nat) :
    ∃ k rest, composeFrom n kept ns = k :: rest ∧ (k = n ∨ 0xc0 ≤ k) := by
  induction ns generalizing n kept with
  | nil => exact ⟨n, kept, rfl, .inl rfl⟩
  | cons m ns ih =>
    rw [composeFrom]
    cases hmade : if kept.getLast?.all (markClass · < markClass m) then compose? n m else none with
    | none =>
      dsimp only
      split
      · exact ⟨n, _, rfl, .inl rfl⟩
      · exact ih n (kept ++ [m])
    | some composite =>
      have hbound : 0xc0 ≤ composite := by
        split at hmade
        · exact (compose?_bounds hmade).2.2
        · cases hmade
      obtain ⟨k, rest, hrest, hk⟩ := ih composite kept
      refine ⟨k, rest, hrest, .inr ?_⟩
      omega

/-- A name that starts with an underscore and a letter does so in its normal form, unless marks make
another letter of it. -/
theorem normalCodes_underscore (h : n < 0xa0) (ns : List Nat) :
    ∃ k rest, normalCodes (0x5f :: n :: ns) = 0x5f :: k :: rest ∧ (k = n ∨ 0xc0 ≤ k) := by
  have hclass : markClass 0x5f = 0 := markClass_eq_zero (by decide)
  have hn : n < 0x300 := Nat.lt_trans h (by decide)
  have harranged : arrange ((0x5f :: n :: ns).flatMap expand) =
      0x5f :: n :: arrange (ns.flatMap expand) := by
    rw [List.flatMap_cons, List.flatMap_cons, expand_eq_singleton (by decide), expand_eq_singleton h,
      List.singleton_append, List.singleton_append, arrange_cons hclass,
      arrange_cons (markClass_eq_zero hn)]
  obtain ⟨k, rest, hrest, hk⟩ := composeFrom_head n [] (arrange (ns.flatMap expand))
  refine ⟨k, rest, ?_, hk⟩
  rw [normalCodes, harranged, composeAll, if_pos hclass]
  simp [composeFrom, compose?_eq_none hn, markClass_eq_zero hn, hrest]

end OpenApiClient.Text

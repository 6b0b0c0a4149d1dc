import OpenApiClient.Text.Basic

/-! # Decimal numbers with a fraction or an exponent

A number of this kind is kept as a sign, digits and a power of ten, the digits without a zero at
their end, so that equal numbers are equal values. Zero has a sign of its own. Its text is
positional from `0.0001` up to sixteen places before the point, and in scientific notation
elsewhere. -/
namespace OpenApiClient

/-- The digits end in no zero, or the number is zero itself. -/
def IsReduced (digits : Nat) (exponent : Int) : Prop :=
  digits % 10 ≠ 0 ∨ (digits = 0 ∧ exponent = 0)

instance (digits : Nat) (exponent : Int) : Decidable (IsReduced digits exponent) :=
  inferInstanceAs (Decidable (_ ∨ _))

/-- The number `± digits · 10 ^ exponent`, one of the infinities, or no number. -/
inductive Decimal
  | finite (negative : Bool) (digits : Nat) (exponent : Int) (reduced : IsReduced digits exponent)
  | infinite (negative : Bool)
  | nan
  deriving DecidableEq

/-- Moves the zeros at the end of the digits into the exponent. -/
def reduceDigits (digits : Nat) (exponent : Int) : Nat × Int :=
  if digits = 0 then (0, 0)
  else if digits % 10 = 0 then reduceDigits (digits / 10) (exponent + 1)
  else (digits, exponent)
termination_by digits
decreasing_by omega

theorem isReduced_reduceDigits (digits : Nat) (exponent : Int) :
    IsReduced (reduceDigits digits exponent).1 (reduceDigits digits exponent).2 := by
  fun_induction reduceDigits digits exponent with
  | case1 => exact Or.inr ⟨rfl, rfl⟩
  | case2 _ _ _ _ ih => exact ih
  | case3 _ _ _ h => exact Or.inl h

theorem reduceDigits_of_isReduced {digits : Nat} {exponent : Int} (h : IsReduced digits exponent) :
    reduceDigits digits exponent = (digits, exponent) := by
  rw [reduceDigits]
  rcases h with h | ⟨rfl, rfl⟩
  · rw [if_neg (by omega), if_neg h]
  · rw [if_pos rfl]

namespace Decimal

/-- The number with these digits, whatever zeros they end in. -/
def ofDigits (negative : Bool) (digits : Nat) (exponent : Int) : Decimal :=
  .finite negative _ _ (isReduced_reduceDigits digits exponent)

def isZero : Decimal → Bool
  | finite _ digits _ _ => digits == 0
  | _ => false

/-- An exponent with its sign and at least two digits. -/
def exponentText (e : Int) : String :=
  let magnitude := toString e.natAbs
  (if e < 0 then "e-" else "e+") ++ (if magnitude.length < 2 then "0" ++ magnitude else magnitude)

/-- Digits with the point after `point` places, which may lie outside of the digits. -/
def positional (digits : List Char) (point : Int) : List Char :=
  if point ≤ 0 then '0' :: '.' :: List.replicate (-point).toNat '0' ++ digits
  else if digits.length ≤ point then
    digits ++ List.replicate (point - digits.length).toNat '0' ++ ['.', '0']
  else digits.take point.toNat ++ '.' :: digits.drop point.toNat

/-- Digits with the point after the first of them, and the exponent that this asks for. -/
def scientific (digits : List Char) (point : Int) : List Char :=
  (match digits with
    | [] => []
    | [d] => [d]
    | d :: rest => d :: '.' :: rest) ++ (exponentText (point - 1)).toList

def magnitudeText (digits : Nat) (exponent : Int) : List Char :=
  let ds := Nat.toDigits 10 digits
  let point : Int := ds.length + exponent
  if -4 < point ∧ point ≤ 16 then positional ds point else scientific ds point

/-- The text of a number, with the given words for what is not finite. -/
def textWith (infinity noNumber : String) : Decimal → String
  | finite negative digits exponent _ =>
    (if negative then "-" else "") ++ String.ofList (magnitudeText digits exponent)
  | infinite negative => (if negative then "-" else "") ++ infinity
  | nan => noNumber

/-- The text of a number in a message or a title. -/
def text : Decimal → String := textWith "inf" "nan"

/-- The text of a number in a document. -/
def documentText : Decimal → String := textWith "Infinity" "NaN"

end Decimal

end OpenApiClient

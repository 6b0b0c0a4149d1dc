import OpenApiClient.Decimal.Basic

/-! # Reading decimal numbers

Numbers are held to the precision of 53 binary digits with exponents from -1074 to 971. A number
that is read becomes the nearest such binary number, a tie going to the even neighbour, and this
one is then named by the fewest decimal digits that read back as it; of two such names the nearer
is taken. -/
namespace OpenApiClient

/-- The positive number `mantissa · 2 ^ power`. -/
structure Binary where
  mantissa : Nat
  power : Int
  deriving DecidableEq

/-- The quotient rounded to a whole number, a half to the even one. -/
def roundHalfEven (num den : Nat) : Nat :=
  let q := num / den
  let r := num % den
  if 2 * r < den then q
  else if den < 2 * r then q + 1
  else q + q % 2

/-- The fraction `num / den` times a power of `base`, again as a fraction. -/
def scaleBy (base : Nat) (power : Int) (num den : Nat) : Nat × Nat :=
  if 0 ≤ power then (num * Nat.pow base power.toNat, den)
  else (num, den * Nat.pow base (-power).toNat)

/-- The greatest power of two not above a positive fraction. -/
def floorLog (num den : Nat) : Int :=
  let e : Int := (num.log2 : Int) - den.log2
  let (n, d) := scaleBy 2 (-e) num den
  if d ≤ n then e else e - 1

/-- The first number of 54 binary digits. -/
def mantissaLimit : Nat := 9007199254740992

example : mantissaLimit = Nat.pow 2 53 := rfl

/-- The binary number nearest to a positive fraction, none when it is too large. -/
def nearestBinary (num den : Nat) : Option Binary :=
  let power := max (floorLog num den - 52) (-1074)
  let (n, d) := scaleBy 2 (-power) num den
  let mantissa := roundHalfEven n d
  let b : Binary :=
    if mantissa = mantissaLimit then ⟨mantissaLimit / 2, power + 1⟩ else ⟨mantissa, power⟩
  if 971 < b.power then none else some b

namespace Binary

def fraction (b : Binary) : Nat × Nat := scaleBy 2 b.power b.mantissa 1

/-- The count of decimal places before the point, negative for a number that starts with zeros after
the point. -/
def places (b : Binary) : Int :=
  let (n, d) := b.fraction
  ((Nat.toDigits 10 (n * Nat.pow 10 400 / d)).length : Int) - 400

/-- Whether the decimal `digits · 10 ^ exponent` reads as the number. -/
def isNamedBy (b : Binary) (digits : Nat) (exponent : Int) : Bool :=
  let (n, d) := scaleBy 10 exponent digits 1
  digits != 0 && nearestBinary n d == some b

/-- The decimals with `count` digits next to the number that read as it, nearest first. -/
def namesWith (b : Binary) (count : Nat) : List (Nat × Int) :=
  let exponent := b.places - count
  let (p, q) := b.fraction
  let (n, d) := scaleBy 10 (-exponent) p q
  let below := n / d
  let rest := n % d
  let near := if 2 * rest < d || (2 * rest == d && below % 2 == 0) then [below, below + 1]
    else [below + 1, below]
  (near.filter (b.isNamedBy · exponent)).map (·, exponent)

/-- The shortest decimal that reads as the number; seventeen digits always do. -/
def shortest (b : Binary) : Nat × Int :=
  ((List.range 18).findSome? fun count => (b.namesWith count).head?).getD (0, 0)

end Binary

namespace Decimal

/-- The number `± digits · 10 ^ exponent`, rounded to the precision that numbers are held to. -/
def read (negative : Bool) (digits : Nat) (exponent : Int) : Decimal :=
  let places : Int := (Nat.toDigits 10 digits).length + exponent
  if digits = 0 ∨ places < -400 then ofDigits negative 0 0
  else if 400 < places then .infinite negative
  else
    let (n, d) := scaleBy 10 exponent digits 1
    match nearestBinary n d with
    | none => .infinite negative
    | some ⟨0, _⟩ => ofDigits negative 0 0
    | some b => ofDigits negative b.shortest.1 b.shortest.2

/-- The exact value of a finite number as a signed numerator and a denominator. -/
def value? : Decimal → Option (Int × Nat)
  | finite negative digits exponent _ =>
    if digits = 0 then some (0, 1)
    else
      let (n, d) := scaleBy 10 exponent digits 1
      (nearestBinary n d).map fun b =>
        let (p, q) := b.fraction
        (if negative then -(p : Int) else p, q)
  | _ => none

end Decimal

end OpenApiClient

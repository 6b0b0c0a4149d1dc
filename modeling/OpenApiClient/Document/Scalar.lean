import OpenApiClient.Decimal.Rounding
import OpenApiClient.Text.Quoted

/-! # Scalars of a document

A scalar is nothing, a truth value, a whole number, a decimal number or a text. Scalars are also the
keys of mappings; there a truth value counts as the number zero or one, and a decimal number as the
whole number that it equals. -/
namespace OpenApiClient

/-- A value without parts. -/
inductive Scalar
  | null
  | bool (b : Bool)
  | int (n : Int)
  | decimal (d : Decimal)
  | text (s : String)
  deriving DecidableEq

namespace Scalar

/-- The exact value of a scalar that counts as a finite number, as a numerator and a denominator. -/
def number? : Scalar → Option (Int × Nat)
  | bool b => some (if b then 1 else 0, 1)
  | int n => some (n, 1)
  | decimal d => d.value?
  | _ => none

/-- Whether two keys name the same member of a mapping. -/
def sameKey (a b : Scalar) : Bool :=
  decide (a = b) ||
    match a.number?, b.number? with
    | some (p, q), some (r, s) => p * s == r * q
    | _, _ => false

@[simp] theorem sameKey_self (a : Scalar) : a.sameKey a = true := by simp [sameKey]

/-- A text names the same member as itself only. -/
theorem sameKey_text_iff {a : Scalar} {s : String} : a.sameKey (text s) = true ↔ a = text s := by
  simp [sameKey, number?]

/-- Whether the scalar stands for something: not nothing, false, zero or the empty text. -/
def isTruthy : Scalar → Bool
  | null => false
  | bool b => b
  | int n => n != 0
  | decimal d => !d.isZero
  | text s => s != ""

def display : Scalar → String
  | null => "None"
  | bool b => if b then "True" else "False"
  | int n => toString n
  | decimal d => d.text
  | text s => s

/-- The scalar as a literal: texts are quoted. -/
def literal : Scalar → String
  | text s => Text.quoted s
  | s => s.display

end Scalar

end OpenApiClient

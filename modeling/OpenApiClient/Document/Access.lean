import OpenApiClient.Failure
import OpenApiClient.Text.Basic

/-! # Looking into a value of unknown kind

A document is not checked beforehand. Each look into it states the kind of value that it needs, and
ends with the fault `wrongType` where the document holds another kind. -/
namespace OpenApiClient.Value

def members : Value → Except Fault Members
  | .mapping ms => .ok ms
  | _ => .error .wrongType

def asText : Value → Except Fault String
  | .text s => .ok s
  | _ => .error .wrongType

/-- The scalar that the value is, as a key or a member of a set has to be one. -/
def asScalar : Value → Except Fault Scalar
  | .scalar s => .ok s
  | _ => .error .wrongType

/-- The value under a key of a mapping, none when the key is missing. -/
def get? (v : Value) (key : String) : Except Fault (Option Value) :=
  v.members.map (Members.get? · key)

/-- The value under a key of a mapping, nothing when the key is missing. -/
def get (v : Value) (key : String) : Except Fault Value :=
  (v.get? key).map (·.getD .null)

/-- The value under a key that a mapping has to have. -/
def require (v : Value) (key : String) : Except Fault Value := do
  match ← v.get? key with
  | some found => .ok found
  | none => .error .missingEntry

/-- Whether a text occurs: as a key of a mapping, an item of a sequence, or a part of a text. -/
def mentions (v : Value) (key : String) : Except Fault Bool :=
  match v with
  | .mapping ms => .ok (Members.has ms key)
  | .sequence items => .ok (items.contains (.text key))
  | .text s => .ok (Text.occurs key.toList s.toList)
  | _ => .error .wrongType

/-- The parts of a value in order: the items of a sequence, the keys of a mapping, the characters
of a text. -/
def elements : Value → Except Fault (List Value)
  | .sequence items => .ok items
  | .mapping ms => .ok (ms.map fun m => .scalar m.1)
  | .text s => .ok (s.toList.map fun c => .text (String.singleton c))
  | _ => .error .wrongType

/-- The count of the parts of a value. -/
def size (v : Value) : Except Fault Nat := v.elements.map List.length

/-- The value, or an empty mapping in place of a value that stands for nothing. -/
def orEmpty (v : Value) : Value := if v.isTruthy then v else .empty

/-- The value, or an empty sequence in place of a value that stands for nothing. -/
def orNone (v : Value) : Value := if v.isTruthy then v else .sequence []

/-- The value, or the empty text in place of a value that stands for nothing. -/
def orBlank (v : Value) : Value := if v.isTruthy then v else .text ""

/-- The text of a value without white space at its ends; a value that stands for nothing is the
empty text. -/
def stripped (v : Value) : Except Fault String := v.orBlank.asText.map Text.strip

/-- A pair of a key and a value, written as a collection or a text of two parts. -/
def asPair (v : Value) : Except Fault (Scalar × Value) := do
  match ← v.elements with
  | [key, value] => return (← key.asScalar, value)
  | _ => .error .badValue

/-- The members that a value contributes to a mapping: its own, or those given by its parts as
pairs. -/
def entries : Value → Except Fault Members
  | .mapping ms => .ok ms
  | v => do (← v.elements).mapM asPair

@[simp] theorem get?_mapping (ms : Members) (key : String) :
    (mapping ms).get? key = .ok (Members.get? ms key) := rfl

@[simp] theorem mentions_mapping (ms : Members) (key : String) :
    (mapping ms).mentions key = .ok (Members.has ms key) := rfl

theorem isTruthy_orBlank_or (v : Value) : v.orBlank = v ∨ v.orBlank = .text "" := by
  unfold orBlank; split <;> simp

end OpenApiClient.Value

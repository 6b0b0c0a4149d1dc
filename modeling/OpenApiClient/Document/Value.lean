import OpenApiClient.Document.Scalar

/-! # Values of a document

A document is a tree of mappings and sequences with scalars as leaves. The members of a mapping keep
the order in which they were written. -/
namespace OpenApiClient

/-- A node of a document. -/
inductive Value
  | scalar (s : Scalar)
  | sequence (items : List Value)
  | mapping (members : List (Scalar × Value))

/-- The members of a mapping in their order. -/
abbrev Members := List (Scalar × Value)

namespace Value

@[match_pattern] abbrev null : Value := .scalar .null
@[match_pattern] abbrev bool (b : Bool) : Value := .scalar (.bool b)
@[match_pattern] abbrev int (n : Int) : Value := .scalar (.int n)
@[match_pattern] abbrev text (s : String) : Value := .scalar (.text s)

abbrev empty : Value := .mapping []

instance : Inhabited Value := ⟨null⟩

mutual

def decEq : (a b : Value) → Decidable (a = b)
  | .scalar s, .scalar t =>
    if h : s = t then isTrue (h ▸ rfl) else isFalse (by simpa using h)
  | .sequence xs, .sequence ys =>
    match decEqItems xs ys with
    | isTrue h => isTrue (h ▸ rfl)
    | isFalse h => isFalse (by simpa using h)
  | .mapping xs, .mapping ys =>
    match decEqMembers xs ys with
    | isTrue h => isTrue (h ▸ rfl)
    | isFalse h => isFalse (by simpa using h)
  | .scalar _, .sequence _ | .scalar _, .mapping _ | .sequence _, .scalar _
  | .sequence _, .mapping _ | .mapping _, .scalar _ | .mapping _, .sequence _ => isFalse (by simp)

def decEqItems : (xs ys : List Value) → Decidable (xs = ys)
  | [], [] => isTrue rfl
  | [], _ :: _ | _ :: _, [] => isFalse (by simp)
  | x :: xs, y :: ys =>
    match decEq x y, decEqItems xs ys with
    | isTrue h, isTrue h' => isTrue (h ▸ h' ▸ rfl)
    | isFalse h, _ => isFalse (by simp [h])
    | _, isFalse h => isFalse (by simp [h])

def decEqMembers : (xs ys : List (Scalar × Value)) → Decidable (xs = ys)
  | [], [] => isTrue rfl
  | [], _ :: _ | _ :: _, [] => isFalse (by simp)
  | (k, x) :: xs, (l, y) :: ys =>
    if hk : k = l then
      match decEq x y, decEqMembers xs ys with
      | isTrue h, isTrue h' => isTrue (hk ▸ h ▸ h' ▸ rfl)
      | isFalse h, _ => isFalse (by simp [h])
      | _, isFalse h => isFalse (by simp [h])
    else isFalse (by simp [hk])

end

instance : DecidableEq Value := decEq

mutual

/-- The count of nodes and keys of a value. -/
def weight : Value → Nat
  | .scalar _ => 1
  | .sequence items => 1 + weightItems items
  | .mapping members => 1 + weightMembers members

def weightItems : List Value → Nat
  | [] => 0
  | v :: rest => weight v + weightItems rest

def weightMembers : List (Scalar × Value) → Nat
  | [] => 0
  | (_, v) :: rest => 1 + weight v + weightMembers rest

end

theorem weight_pos (v : Value) : 0 < v.weight := by
  cases v <;> simp +arith [weight]

/-- Whether the value stands for something: a truthy scalar, or a collection that is not empty. -/
def isTruthy : Value → Bool
  | .scalar s => s.isTruthy
  | .sequence items => !items.isEmpty
  | .mapping members => !members.isEmpty

end Value

namespace Members

/-- The value of the first member whose key is the same as the given one. -/
def at? (members : Members) (key : Scalar) : Option Value :=
  (List.find? (fun m => m.1.sameKey key) members).map Prod.snd

def get? (members : Members) (key : String) : Option Value := at? members (.text key)

def has (members : Members) (key : String) : Bool := (get? members key).isSome

/-- The members with a value set: in the place of the same key, or at the end. -/
def set (members : Members) (key : Scalar) (value : Value) : Members :=
  if members.any fun m => m.1.sameKey key then
    members.map fun m => if m.1.sameKey key then (m.1, value) else m
  else members ++ [(key, value)]

/-- The members with further ones set, one after the other. -/
def setAll (members more : Members) : Members := more.foldl (fun ms m => ms.set m.1 m.2) members

def erase (members : Members) (key : String) : Members :=
  members.filter fun m => !m.1.sameKey (.text key)

@[simp] theorem get?_nil (key : String) : get? [] key = none := rfl

theorem get?_cons (k : Scalar) (v : Value) (rest : Members) (key : String) :
    get? ((k, v) :: rest) key = if k = .text key then some v else get? rest key := by
  by_cases h : k = .text key
  · simp [get?, at?, h]
  · have : k.sameKey (.text key) = false := by
      simpa using mt Scalar.sameKey_text_iff.mp h
    simp [get?, at?, h, this]

end Members

/-! ## Values as text

A text shows itself at the top and is quoted inside of collections. -/

namespace Value

mutual

def literal : Value → String
  | .scalar s => s.literal
  | .sequence items => "[" ++ String.intercalate ", " (itemLiterals items) ++ "]"
  | .mapping members => "\x7b" ++ String.intercalate ", " (memberLiterals members) ++ "\x7d"

def itemLiterals : List Value → List String
  | [] => []
  | v :: rest => literal v :: itemLiterals rest

def memberLiterals : List (Scalar × Value) → List String
  | [] => []
  | (k, v) :: rest => (k.literal ++ ": " ++ literal v) :: memberLiterals rest

end

/-- The value as a text: a literal, but for a text itself. -/
def display : Value → String
  | .scalar s => s.display
  | v => v.literal

end Value

/-- What keeps a text from being read as a document. -/
inductive ReadFlaw
  /-- The text is not in its format. -/
  | malformed
  /-- A number of the text is out of bounds. -/
  | badValue
  /-- A number of the text is beyond all bounds. -/
  | overflow
  /-- A part of the document stands within itself, or deeper than there is room for. -/
  | endless
  /-- A value of the text is of a kind that the reader has no use for. -/
  | wrongType
  /-- A text that the reader needs a character of is empty. -/
  | emptyText
  /-- The reader looks up what it does not have. -/
  | missingEntry
  deriving DecidableEq

end OpenApiClient

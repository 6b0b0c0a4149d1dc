import OpenApiClient.Document.Access

/-! # The canonical text of a value

Members are sorted by key, `, ` and `: ` separate, and every character outside of the printable
part of the first 127 is escaped by its units of sixteen bits. Keys of one mapping have to be
comparable: all texts, or all numbers. -/
namespace OpenApiClient

namespace Text

/-- The escape of one unit of sixteen bits. -/
def unitEscape (n : Nat) : List Char := '\\' :: 'u' :: hexDigits 4 n

def canonicalChar (c : Char) : List Char :=
  let n := c.toNat
  if c = '"' || c = '\\' then ['\\', c]
  else if 0x20 ≤ n ∧ n < 0x7f then [c]
  else if c = '\n' then ['\\', 'n']
  else if c = '\r' then ['\\', 'r']
  else if c = '\t' then ['\\', 't']
  else if c = '\x0c' then ['\\', 'f']
  else if c = '\x08' then ['\\', 'b']
  else if n < 0x10000 then unitEscape n
  else unitEscape (0xd800 + (n - 0x10000) / 0x400) ++ unitEscape (0xdc00 + (n - 0x10000) % 0x400)

def canonical (s : String) : String :=
  String.ofList ('"' :: s.toList.flatMap canonicalChar ++ ['"'])

end Text

namespace Scalar

def canonical : Scalar → String
  | null => "null"
  | bool b => if b then "true" else "false"
  | int n => toString n
  | decimal d => d.documentText
  | text s => Text.canonical s

/-- The key of a member in a canonical text, which is always quoted. -/
def canonicalKey : Scalar → String
  | text s => Text.canonical s
  | s => Text.canonical s.canonical

/-- Whether the first key is not above the second, for two texts or two numbers. -/
def keyLe? (a b : Scalar) : Option Bool :=
  match a, b with
  | text s, text t => some (decide (s ≤ t))
  | a, b =>
    match a.number?, b.number? with
    | some (p, q), some (r, s) => some (decide (p * s ≤ r * q))
    | _, _ => none

end Scalar

namespace Members

/-- Puts a member before the first one with a greater key. -/
def insertSorted (m : Scalar × Value) : Members → Except Fault Members
  | [] => .ok [m]
  | n :: rest =>
    match m.1.keyLe? n.1 with
    | none => .error .wrongType
    | some true => .ok (m :: n :: rest)
    | some false => (insertSorted m rest).map (n :: ·)

def sorted : Members → Except Fault Members
  | [] => .ok []
  | m :: rest => do insertSorted m (← sorted rest)

end Members

namespace Value

mutual

def sorted : Value → Except Fault Value
  | .scalar s => .ok (.scalar s)
  | .sequence items => (sortedItems items).map .sequence
  | .mapping ms => do
    let ms ← sortedMembers ms
    (Members.sorted ms).map .mapping

/-- The items of a sequence, each sorted. -/
def sortedItems : List Value → Except Fault (List Value)
  | [] => .ok []
  | v :: rest => do
    let v ← sorted v
    (sortedItems rest).map (v :: ·)

/-- The members of a mapping in their order, the value of each sorted. -/
def sortedMembers : List (Scalar × Value) → Except Fault (List (Scalar × Value))
  | [] => .ok []
  | (k, v) :: rest => do
    let v ← sorted v
    (sortedMembers rest).map ((k, v) :: ·)

end

mutual

/-- The value written with its members in their order. -/
def written : Value → String
  | .scalar s => s.canonical
  | .sequence items => "[" ++ String.intercalate ", " (writtenItems items) ++ "]"
  | .mapping ms => "\x7b" ++ String.intercalate ", " (writtenMembers ms) ++ "\x7d"

/-- The items of a sequence, each written. -/
def writtenItems : List Value → List String
  | [] => []
  | v :: rest => written v :: writtenItems rest

/-- The members of a mapping, each written. -/
def writtenMembers : List (Scalar × Value) → List String
  | [] => []
  | (k, v) :: rest => (k.canonicalKey ++ ": " ++ written v) :: writtenMembers rest

end

def canonical (v : Value) : Except Fault String := v.sorted.map written

end Value

end OpenApiClient

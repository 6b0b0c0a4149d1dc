import OpenApiClient.Document.Yaml.Plain

/-! # Nodes of YAML

A text in YAML writes a tree of nodes. Their meaning is found once the whole tree is known, level by
level: of two nodes without one, the node nearer to the root counts. A key has to be a scalar, a
repeated key keeps its first place and takes its last value, and a key `<<` brings in the members
of other mappings. -/
namespace OpenApiClient.Yaml

/-- A node as it is written. -/
inductive Node
  /-- A scalar; one without quotes is plain. -/
  | scalar (text : String) (isPlain : Bool)
  | sequence (items : List Node)
  | mapping (pairs : List (Node × Node))
  /-- A node that stands within itself. -/
  | loop

namespace Node

def blank : Node := scalar "" true

mutual

def depth : Node → Nat
  | scalar _ _ | loop => 0
  | sequence items => depthOfItems items + 1
  | mapping pairs => depthOfPairs pairs + 1

def depthOfItems : List Node → Nat
  | [] => 0
  | n :: rest => max n.depth (depthOfItems rest)

def depthOfPairs : List (Node × Node) → Nat
  | [] => 0
  | (k, v) :: rest => max (max k.depth v.depth) (depthOfPairs rest)

end

/-! ## Scalars and keys -/

/-- What a scalar means. The two signs of a mapping mean nothing elsewhere. -/
def scalarOf (text : String) (isPlain : Bool) : Except ReadFlaw Scalar :=
  if !isPlain then .ok (.text text)
  else if text = "<<" ∨ text = "=" then .error .malformed
  else
    match plain? text with
    | some s => .ok s
    | none => .error .badValue

def keyOf : Node → Except ReadFlaw Scalar
  | scalar text isPlain =>
    if isPlain && text == "=" then .ok (.text text) else scalarOf text isPlain
  | _ => .error .malformed

/-- Whether a key brings in the members of other mappings. -/
def isMerge : Node → Bool
  | scalar text isPlain => isPlain && text == "<<"
  | _ => false

/-! ## Pairs of a mapping -/

mutual

/-- The pairs that a mapping brings in, and its own ones. -/
def split : List (Node × Node) → Except ReadFlaw (List (Node × Node) × List (Node × Node))
  | [] => .ok ([], [])
  | (key, value) :: rest => do
    if key.isMerge then
      let here ← broughtIn value
      let (merged, own) ← split rest
      return (here ++ merged, own)
    else
      let (merged, own) ← split rest
      return (merged, (key, value) :: own)

/-- The pairs that a node brings into a mapping: those of a mapping, or those of some mappings, the
first of them last. -/
def broughtIn : Node → Except ReadFlaw (List (Node × Node))
  | mapping pairs => do
    let (merged, own) ← split pairs
    return merged ++ own
  | sequence items => broughtInByAll items
  | _ => .error .malformed

/-- The pairs that the items of a sequence bring into a mapping. -/
def broughtInByAll : List Node → Except ReadFlaw (List (Node × Node))
  | [] => .ok []
  | mapping pairs :: rest => do
    let (merged, own) ← split pairs
    return (← broughtInByAll rest) ++ (merged ++ own)
  | _ :: _ => .error .malformed

end

/-- The pairs of a mapping, those that it brings in first. -/
def allPairs (pairs : List (Node × Node)) : Except ReadFlaw (List (Node × Node)) := do
  let (merged, own) ← split pairs
  return merged ++ own

/-! ## Meaning -/

/-- Checks a node in a collection if it is a scalar, and puts it off otherwise. -/
def checkPart : Node → Except ReadFlaw (List Node)
  | scalar text isPlain => (scalarOf text isPlain).map fun _ => []
  | n => .ok [n]

/-- Checks the parts of a node. Gives the collections among them. -/
def checkParts : Node → Except ReadFlaw (List Node)
  | sequence items => do return (← items.mapM checkPart).flatten
  | mapping pairs => do
    let parts ← (← allPairs pairs).mapM fun (key, value) => do
      let _ ← keyOf key
      checkPart value
    return parts.flatten
  | _ => .ok []

def checkLevels : (fuel : Nat) → List Node → Except ReadFlaw Unit
  | 0, _ => .ok ()
  | fuel + 1, level => do checkLevels fuel (← level.mapM checkParts).flatten

/-- Ends with the first flaw of a node, if it has one. -/
def check (n : Node) : Except ReadFlaw Unit := do checkLevels n.depth (← checkPart n)

def valueWith : (fuel : Nat) → Node → Except ReadFlaw Value
  | _, scalar text isPlain => (scalarOf text isPlain).map .scalar
  | fuel + 1, sequence items => do return .sequence (← items.mapM (valueWith fuel))
  | fuel + 1, mapping pairs => do
    let members ← (← allPairs pairs).mapM fun (key, value) =>
      return (← keyOf key, ← valueWith fuel value)
    return .mapping (Members.setAll [] members)
  | _, loop | 0, _ => .error .endless

/-- What a node means, or its first flaw. -/
def value (n : Node) : Except ReadFlaw Value := do
  n.check
  n.valueWith n.depth

end Node

end OpenApiClient.Yaml

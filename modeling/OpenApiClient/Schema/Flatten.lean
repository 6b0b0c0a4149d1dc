import OpenApiClient.Document.Pointer

/-! # Following references between schemas

`allOf` lists the schemas that a schema extends. Flattening follows the references and the lists
of each of them down to the properties and the required names that they declare. -/
namespace OpenApiClient.Schema

def lookup (document : Value) (reference : String) : Except Fault Value :=
  match document.resolve reference with
  | .ok (.mapping ms) => .ok (.mapping ms)
  | .ok _ | .error .missingEntry => .error (.of (.danglingReference (.text reference)))
  | .error fault => .error fault

/-- The schema at the end of a chain of references; a chain that comes back ends where it does. -/
def followRefs (document : Value) : (fuel : Nat) → (seen : List String) → Value → Except Fault Value
  | 0, _, schema => .ok schema
  | fuel + 1, seen, schema => do
    if ← schema.mentions "$ref" then
      let reference ← (← schema.require "$ref").asText
      if seen.contains reference then return schema
      followRefs document fuel (reference :: seen) (← lookup document reference)
    else return schema

/-- Properties and required names, gathered from several schemas. -/
structure Flat where
  properties : Members := []
  required : List Value := []

namespace Flat

/-- What was gathered with what a schema declares; a later property takes the place of an earlier
one of its name. -/
def add (f : Flat) (schema : Value) : Except Fault Flat := do
  let properties ← (← schema.get "properties").orEmpty.entries
  let required ← (← schema.get "required").orNone.elements
  return ⟨Members.setAll f.properties properties, f.required ++ required⟩

def toSchema (f : Flat) : Value :=
  .mapping [(.text "properties", .mapping f.properties), (.text "required", .sequence f.required)]

def toObject (f : Flat) : Value :=
  .mapping [(.text "type", .text "object"), (.text "properties", .mapping f.properties),
    (.text "required", .sequence f.required)]

end Flat

/-- A schema in terms of properties and required names. The schemas that are being flattened are in
`active`; one of them met again has no end. -/
def flattenWith (document : Value) :
    (fuel : Nat) → (active : List Value) → Value → Except Fault Value
  | 0, _, _ => .error .endless
  | fuel + 1, active, schema => do
    let schema ← followRefs document (document.weight + 2) [] schema
    if ← schema.mentions "allOf" then
      if active.contains schema then throw .endless
      let subs ← (← schema.require "allOf").elements
      let gathered ← subs.foldlM
        (fun f sub => do f.add (← flattenWith document fuel (schema :: active) sub)) ({} : Flat)
      return (← gathered.add schema).toSchema
    else return schema

/-- A schema in terms of properties and required names. -/
def flatten (document schema : Value) : Except Fault Value :=
  flattenWith document (document.weight + schema.weight + 2) [] schema

/-- The keys of a schema that only documents another one. -/
def remarkKeys : List String :=
  ["description", "title", "example", "examples", "externalDocs", "nullable", "readOnly",
    "writeOnly", "default"]

/-- Whether a list of keys holds nothing that changes a type; keys after one that does do not
count. -/
def areRemarks : List Value → Except Fault Bool
  | [] => .ok true
  | key :: rest => do
    match ← key.asScalar with
    | .text s => if remarkKeys.contains s then areRemarks rest else return false
    | _ => return false

/-- Whether a member of `allOf` only documents. -/
def isRemark (schema : Value) : Except Fault Bool := do areRemarks (← schema.elements)

end OpenApiClient.Schema

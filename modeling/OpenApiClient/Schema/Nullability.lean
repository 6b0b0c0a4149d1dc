import OpenApiClient.Document.Access

/-! # Schemas that admit null

Null is admitted by the flag `nullable`, by `"null"` in a list of types, or by a null among the
values of an enumeration. -/
namespace OpenApiClient.Schema

/-- Whether null is one of the values of an enumeration. -/
def listsNull : Value → Except Fault Bool
  | .sequence items => .ok (items.contains .null)
  | .mapping ms => .ok (ms.any (·.1 == .null))
  | _ => .error .wrongType

def isNullable (schema : Value) : Except Fault Bool := do
  let ms ← schema.members
  if Members.get? ms "nullable" = some (.bool true) then return true
  match Members.get? ms "type" with
  | some (.sequence types) => if types.contains (.text "null") then return true
  | _ => pure ()
  match Members.get? ms "enum" with
  | some values => listsNull values
  | none => return false

/-- The members of a schema with null struck from its list of types. A list of one type becomes that
type, an empty one disappears. -/
def stripTypes (ms : Members) : Members :=
  match Members.get? ms "type" with
  | some (.sequence types) =>
    match types.filter (· != .text "null") with
    | [] => Members.erase ms "type"
    | [only] => Members.set ms (.text "type") only
    | rest => Members.set ms (.text "type") (.sequence rest)
  | _ => ms

/-- The schema that admits the same values but null. -/
def stripNullable (schema : Value) : Except Fault Value := do
  let ms := stripTypes (Members.erase (← schema.members) "nullable")
  match Members.get? ms "enum" with
  | some values =>
    let values := (← values.elements).filter (· != .null)
    return .mapping (Members.set ms (.text "enum") (.sequence values))
  | none => return .mapping ms

end OpenApiClient.Schema

import OpenApiClient.Schema.Flatten
import OpenApiClient.Schema.Nullability
import OpenApiClient.Schema.Shape
import OpenApiClient.Schema.Entry

/-! # One layer of a schema

The outermost layer of a schema says of which kind its type is and which schemas it is made of. It
depends on the schema and the document alone; the types of the parts are filled in afterwards. -/
namespace OpenApiClient.Schema

/-- A schema that another one is made of, with the hint for the names of models in it. The
description of a described part becomes that of a property. -/
structure Part where
  schema : Value
  hint : String
  described : Bool := false

/-- What a type is, with the types of its parts left out. A property has its key, whether it is
required, and its description. -/
inductive Frame
  | primitive (p : Primitive)
  | array
  | map
  | object (properties : List (Scalar × Bool × Value))
  | enumeration (values : List String)
  | union
  | choice
  | optional
  | synonym
  deriving DecidableEq

/-- The list without repetitions, the first of equal ids kept. -/
def distinctIds (ids : List TypeId) : List TypeId :=
  ids.foldl (fun members id => if members.contains id then members else members ++ [id]) []

/-- The type with the types of its parts filled in. A choice has each type once, and is that type
when there is only one. -/
def Frame.fill : Frame → List TypeId → Body
  | primitive p, _ => .primitive p
  | array, ids => .array (ids.headD 0)
  | map, ids => .map (ids.headD 0)
  | object properties, ids =>
    .object (List.zipWith (fun p id => ⟨p.1, id, p.2.1, p.2.2⟩) properties ids)
  | enumeration values, _ => .enumeration values
  | union, ids => .union ids
  | choice, ids =>
    match distinctIds ids with
    | [only] => .synonym only
    | members => .union members
  | optional, ids => .optional (ids.headD 0)
  | synonym, ids => .synonym (ids.headD 0)

/-- The outermost layer of a schema: its frame and the parts that belong into it. -/
structure Layer where
  frame : Frame
  parts : List Part := []

def stringType (format : Value) : Except Fault Primitive := do
  match ← format.asScalar with
  | .text "date" => return .date
  | .text "date-time" => return .dateTime
  | .text "binary" => return .bytes
  | _ => return .string

def requiredNames (schema : Value) : Except Fault (List Scalar) := do
  (← (← schema.get "required").orNone.elements).mapM Value.asScalar

def propertyDescription (schema : Value) : Value :=
  match schema.orEmpty.get "description" with
  | .ok description => description.orBlank
  | .error _ => .text ""

/-- The layer of an object, or of a map for an object without properties. -/
def objectLayer (schema : Value) (hint : String) : Except Fault Layer := do
  let properties := (← schema.get "properties").orEmpty
  if properties.isTruthy then
    let required ← requiredNames schema
    let members ← properties.members
    return {
      frame := .object (members.map fun m =>
        (m.1, required.any (·.sameKey m.1), propertyDescription m.2))
      parts := members.map fun m => ⟨m.2, hint ++ " " ++ m.1.display, true⟩ }
  else
    let values := match ← schema.get "additionalProperties" with
      | .mapping ms => .mapping ms
      | _ => .empty
    return { frame := .map, parts := [⟨values, hint ++ " value", false⟩] }

/-- The members of `allOf` that say more than documentation. -/
def extended (schema : Value) : Except Fault (List Value) := do
  let subs ← (← schema.require "allOf").elements
  subs.filterM fun sub => do return !(← isRemark sub)

/-- The properties and required names of several schemas and of the one that extends them. -/
def gather (document : Value) (subs : List Value) (schema : Value) : Except Fault Flat := do
  let gathered ← subs.foldlM (fun f sub => do f.add (← flatten document sub)) ({} : Flat)
  gathered.add schema

/-- The layer of a schema that extends others: the only one of them that says anything, or the
object with the properties of them all. -/
def extensionLayer (document schema : Value) (hint : String) : Except Fault Layer := do
  match ← extended schema with
  | [only] => return { frame := .synonym, parts := [⟨only, hint, false⟩] }
  | subs => objectLayer (← gather document subs schema).toObject hint

def choiceLayer (alternatives : Value) (hint : String) : Except Fault Layer := do
  return { frame := .choice, parts := (← alternatives.elements).map fun sub => ⟨sub, hint, false⟩ }

/-- The values of an enumeration whose values are all texts. -/
def textValues? (values : Value) : Except Fault (Option (List String)) := do
  if !values.isTruthy then return none
  return (← values.elements).mapM fun
    | .text s => some s
    | _ => none

/-- The layer of a schema that neither admits null, nor refers, extends or chooses. -/
def plainLayer (schema : Value) (hint : String) : Except Fault Layer := do
  let ms ← schema.members
  match ← textValues? (← schema.get "enum") with
  | some values => return { frame := .enumeration values }
  | none =>
    match ← schema.get "type" with
    | .sequence types =>
      let ofType (t : Value) : Value := .mapping (Members.set ms (.text "type") t)
      return { frame := .union, parts := types.map fun t => ⟨ofType t, hint, false⟩ }
    | .text "string" =>
      return { frame := .primitive (← stringType ((← schema.get? "format").getD (.text ""))) }
    | .text "integer" => return { frame := .primitive .integer }
    | .text "number" => return { frame := .primitive .number }
    | .text "boolean" => return { frame := .primitive .boolean }
    | .text "array" =>
      let items := (← schema.get "items").orEmpty
      return { frame := .array, parts := [⟨items, hint ++ " item", false⟩] }
    | type =>
      if type = .text "object" ∨ Members.has ms "properties" ∨
          Members.has ms "additionalProperties" then
        objectLayer schema hint
      else return { frame := .primitive .any }

/-- The layer of a schema. -/
def layer (document schema : Value) (hint : String) : Except Fault Layer := do
  let ms ← schema.members
  if ← isNullable schema then
    return { frame := .optional, parts := [⟨← stripNullable schema, hint, false⟩] }
  match Members.get? ms "$ref" with
  | some reference =>
    let target : Value := .mapping [(.text "$ref", reference)]
    return { frame := .synonym, parts := [⟨target, hint, false⟩] }
  | none =>
    if Members.has ms "allOf" then extensionLayer document schema hint
    else
      match Members.get? ms "oneOf", Members.get? ms "anyOf" with
      | some alternatives, _ | none, some alternatives => choiceLayer alternatives hint
      | none, none => plainLayer schema hint

end OpenApiClient.Schema

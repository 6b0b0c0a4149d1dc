import OpenApiClient.Document.Canonical

/-! # The shape of a schema

The shape is what is left of a schema without its documentation. Two schemas of one shape describe
one type, and the canonical text of the shape tells types apart. The title names the model of an
object or an enumeration and stays in the shape of these. -/
namespace OpenApiClient.Schema

/-- The keys that document a schema and do not change its type. -/
def documentationKeys : List String :=
  ["description", "title", "example", "examples", "externalDocs"]

def isDocumentationKey : Scalar → Bool
  | .text s => documentationKeys.contains s
  | _ => false

/-- Whether a schema with these members describes a type with a name. -/
def namesModel (ms : Members) : Bool :=
  Members.has ms "properties" || Members.has ms "enum" ||
    decide (Members.get? ms "type" = some (.text "object"))

mutual

/-- The shape of a schema. Within `properties` the keys are names and none of them is
documentation. -/
def shapeIn (properties : Bool) : Value → Value
  | .scalar s => .scalar s
  | .sequence items => .sequence (shapeItems items)
  | .mapping ms => .mapping (shapeMembers properties (namesModel ms) ms)

def shapeItems : List Value → List Value
  | [] => []
  | v :: rest => shapeIn false v :: shapeItems rest

/-- The shapes of the members of a mapping, without those that document it. -/
def shapeMembers (properties named : Bool) : List (Scalar × Value) → List (Scalar × Value)
  | [] => []
  | (k, v) :: rest =>
    if !properties && isDocumentationKey k && !(k == .text "title" && named) then
      shapeMembers properties named rest
    else
      (k, shapeIn (k == .text "properties" && !properties) v) :: shapeMembers properties named rest

end

def shape (schema : Value) : Value := shapeIn false schema

/-- The text that tells the shape of a schema from others. -/
def structuralKey (schema : Value) : Except Fault String := (shape schema).canonical

end OpenApiClient.Schema

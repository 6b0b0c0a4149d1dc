import OpenApiClient.Document.Value

/-! # Entries of the type registry

An entry describes one type. It refers to other types by their ids, so types may refer to each other
in circles. -/
namespace OpenApiClient.Schema

/-- The place of a type in the registry. -/
abbrev TypeId := Nat

/-- Types without parts. -/
inductive Primitive
  | any
  | string
  | integer
  | number
  | boolean
  | date
  | dateTime
  | bytes
  deriving DecidableEq

/-- What a type is, apart from its parts. -/
inductive Kind
  | primitive (p : Primitive)
  | array
  | map
  | object
  | enumeration
  | union
  | optional
  | synonym
  deriving DecidableEq

namespace Kind

def name : Kind → String
  | primitive .any => "any"
  | primitive .string => "string"
  | primitive .integer => "integer"
  | primitive .number => "number"
  | primitive .boolean => "boolean"
  | primitive .date => "date"
  | primitive .dateTime => "date-time"
  | primitive .bytes => "bytes"
  | array => "array"
  | map => "map"
  | object => "object"
  | enumeration => "enum"
  | union => "union"
  | optional => "optional"
  | synonym => "alias"

end Kind

/-- A property of an object. Its description is kept as the document has it. -/
structure Field where
  key : Scalar
  type : TypeId
  required : Bool
  description : Value
  deriving DecidableEq

/-- A type with its parts. -/
inductive Body
  | primitive (p : Primitive)
  | array (item : TypeId)
  | map (item : TypeId)
  | object (fields : List Field)
  | enumeration (values : List String)
  | union (members : List TypeId)
  | optional (item : TypeId)
  | synonym (item : TypeId)
  deriving DecidableEq

namespace Body

def kind : Body → Kind
  | primitive p => .primitive p
  | array _ => .array
  | map _ => .map
  | object _ => .object
  | enumeration _ => .enumeration
  | union _ => .union
  | optional _ => .optional
  | synonym _ => .synonym

/-- The type of the items, the values, or the one type that stands behind this one. -/
def item? : Body → Option TypeId
  | array item | map item | optional item | synonym item => some item
  | _ => none

def fields : Body → List Field
  | object fields => fields
  | _ => []

def values : Body → List String
  | enumeration values => values
  | _ => []

def members : Body → List TypeId
  | union members => members
  | _ => []

/-- The types that are written as parts of this one. -/
def children : Body → List TypeId
  | array item | map item | optional item | synonym item => [item]
  | union members => members
  | _ => []

/-- Whether the type cannot be written without a name. -/
def needsName : Body → Bool
  | object _ | enumeration _ => true
  | _ => false

end Body

/-- A type of the registry. Types with a name become models. -/
structure Entry where
  body : Body
  name : Option String := none
  description : Value := .text ""
  deriving DecidableEq

end OpenApiClient.Schema

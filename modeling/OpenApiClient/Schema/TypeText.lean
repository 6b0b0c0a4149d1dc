import OpenApiClient.Document.Access
import OpenApiClient.Schema.Registry

/-! # Types as they are written

A type is written by its model name if it has one, and by its parts otherwise. A type without a
name refers only to types registered before it, which ends the writing; a reference in the other
direction would have no end. -/
namespace OpenApiClient.Schema

/-- Two views of a type: as what a call returns, or as what a call accepts. -/
inductive View
  | owned
  | accepted
  deriving DecidableEq

def Primitive.typeText : Primitive → String
  | any => "Any"
  | string => "str"
  | integer => "int"
  | number => "float"
  | boolean => "bool"
  | date => "datetime.date"
  | dateTime => "datetime.datetime"
  | bytes => "bytes"

def Body.typeText (child : View → TypeId → Except Fault String) (view : View) :
    Body → Except Fault String
  | primitive p => .ok p.typeText
  | array item => do
    let inner ← child .owned item
    return (if view = .accepted then "Sequence[" else "list[") ++ inner ++ "]"
  | map item => do
    let inner ← child .owned item
    return (if view = .accepted then "Mapping[str, " else "dict[str, ") ++ inner ++ "]"
  | optional item => do return (← child view item) ++ " | None"
  | synonym item => child view item
  | union members => do return String.intercalate " | " (← members.mapM (child view))
  | object _ | enumeration _ => .error .badValue

namespace Registry

def entry (r : Registry) (id : TypeId) : Except Fault Entry :=
  match r.entries[id]? with
  | some e => .ok e
  | none => .error .missingEntry

/-- A type as it is written where model names have the qualifier in front. -/
def typeTextWith (r : Registry) (qualifier : String) (view : View) (id : TypeId) :
    Except Fault String := do
  let e ← r.entry id
  match e.name with
  | some name => return qualifier ++ name
  | none =>
    e.body.typeText
      (fun view child =>
        if child < id then typeTextWith r qualifier view child else .error .endless)
      view
termination_by id

/-- What stands before the names of models outside of their module. -/
def qualifier (modelsModule : Value) : String :=
  if modelsModule.isTruthy then modelsModule.display ++ "." else ""

/-- A type as it is written outside of the models module. -/
def typeText (r : Registry) (modelsModule : Value) (view : View) (id : TypeId) :
    Except Fault String :=
  r.typeTextWith (qualifier modelsModule) view id

/-- The type behind aliases and optional types, or one that is met twice on the way. -/
def baseFrom (r : Registry) : (fuel : Nat) → (seen : List TypeId) → TypeId → TypeId
  | 0, _, id => id
  | fuel + 1, seen, id =>
    if seen.contains id then id
    else
      match r.body? id with
      | some (.synonym item) | some (.optional item) => baseFrom r fuel (id :: seen) item
      | _ => id

/-- The type behind aliases and optional types. -/
def base (r : Registry) (id : TypeId) : TypeId := r.baseFrom (r.entries.size + 1) [] id

def baseBody? (r : Registry) (id : TypeId) : Option Body := r.body? (r.base id)

def baseKind? (r : Registry) (id : TypeId) : Option Kind := (r.baseBody? id).map Body.kind

def item? (r : Registry) (id : TypeId) : Option TypeId := (r.baseBody? id).bind Body.item?

/-- Whether the type admits null of itself. -/
def isOptional (r : Registry) (id : TypeId) : Bool :=
  (r.body? id).map Body.kind == some .optional

/-- The first description on the way through aliases and optional types. -/
def docsFrom (r : Registry) : (fuel : Nat) → (seen : List TypeId) → TypeId → Except Fault String
  | 0, _, _ => .ok ""
  | fuel + 1, seen, id =>
    if seen.contains id then .ok ""
    else do
      let e ← r.entry id
      if e.description.isTruthy then e.description.stripped
      else
        match e.body with
        | .synonym item | .optional item => docsFrom r fuel (id :: seen) item
        | _ => return ""

/-- The description of a type, or of what stands behind it. -/
def docs (r : Registry) (id : TypeId) : Except Fault String :=
  r.docsFrom (r.entries.size + 1) [] id

end Registry

end OpenApiClient.Schema

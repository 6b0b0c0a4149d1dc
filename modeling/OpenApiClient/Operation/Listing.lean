import OpenApiClient.Document.Pointer

/-! # The operations of a document

Operations are listed path by path in the order of the document, and within a path by method in
one fixed order. The parameters that a path declares for all its operations precede those of each
operation, without the ones that the operation declares itself. -/
namespace OpenApiClient

/-- The methods that an operation can have, in the order in which the operations of a path are
listed. -/
inductive HttpMethod
  | get
  | put
  | post
  | delete
  | options
  | head
  | patch
  | trace
  deriving DecidableEq

namespace HttpMethod

def all : List HttpMethod := [get, put, post, delete, options, head, patch, trace]

def key : HttpMethod → String
  | get => "get"
  | put => "put"
  | post => "post"
  | delete => "delete"
  | options => "options"
  | head => "head"
  | patch => "patch"
  | trace => "trace"

def name : HttpMethod → String
  | get => "GET"
  | put => "PUT"
  | post => "POST"
  | delete => "DELETE"
  | options => "OPTIONS"
  | head => "HEAD"
  | patch => "PATCH"
  | trace => "TRACE"

theorem mem_all (m : HttpMethod) : m ∈ all := by cases m <;> decide

end HttpMethod

/-- An operation as the document declares it, its path's parameters included. -/
structure ListedOperation where
  path : Scalar
  method : HttpMethod
  declaration : Value

namespace Operation

def paths (document : Value) : Except Fault Members := do
  (← document.get "paths").orEmpty.members

/-- What a reference to a shared parameter starts with. -/
def sharedParameterPrefix : String := "#/components/parameters/"

def sharedParameters (document : Value) : Except Fault Members := do
  let components := (← document.get "components").orEmpty
  let table ← (← components.get "parameters").orEmpty.members
  let reference (key : Scalar) : Scalar := .text (sharedParameterPrefix ++ key.display)
  return table.foldl (fun ms m => Members.set ms (reference m.1) m.2) []

/-- What tells two parameters of an operation apart: the reference, or the place and the name. -/
def parameterKey (parameter : Value) : Except Fault (Scalar × Scalar) := do
  if ← parameter.mentions "$ref" then
    return (.text "$ref", ← (← parameter.require "$ref").asScalar)
  let place := (← parameter.get? "in").getD (.text "")
  let name := (← parameter.get? "name").getD (.text "")
  return (← place.asScalar, ← name.asScalar)

/-- Whether two parameters are told to be the same. -/
def sameParameter (a b : Scalar × Scalar) : Bool := a.1.sameKey b.1 && a.2.sameKey b.2

/-- The shared parameters that an operation does not declare, and its own ones. -/
def mergeParameters (shared own : List Value) : Except Fault (List Value) := do
  let keys ← own.mapM parameterKey
  let inherited ← shared.filterM fun p => do
    let key ← parameterKey p
    return !keys.any (sameParameter key)
  return inherited ++ own

/-- The declaration of an operation with the parameters of its path. -/
def withShared (shared declaration : Value) : Except Fault Value := do
  if !shared.isTruthy then return declaration
  let ms ← declaration.members
  let own ← ((Members.get? ms "parameters").getD .null).orNone.elements
  let merged ← mergeParameters (← shared.elements) own
  return .mapping (Members.set ms (.text "parameters") (.sequence merged))

/-- A path item, looked up if it is a reference. -/
def pathItem (document item : Value) : Except Fault Value := do
  if ← item.mentions "$ref" then
    let reference ← (← item.require "$ref").asText
    match document.resolve reference with
    | .error .missingEntry => throw (.of (.danglingReference (.text reference)))
    | found => found
  else return item

/-- The operations of a path item, or the fault that ends their list. -/
def ofItem (path : Scalar) (item : Value) : List (Except Fault ListedOperation) :=
  match item.members, item.get "parameters" with
  | .ok ms, .ok shared =>
    HttpMethod.all.filterMap fun method =>
      match (Members.get? ms method.key).getD .null with
      | .null => none
      | declaration =>
        some ((withShared shared declaration).map fun d => ⟨path, method, d⟩)
  | .error fault, _ | _, .error fault => [.error fault]

/-- The operations of a document. A fault stands where the list ends because of it. -/
def listing (document : Value) : List (Except Fault ListedOperation) :=
  match paths document with
  | .error fault => [.error fault]
  | .ok ms => ms.flatMap fun (path, item) =>
    match pathItem document item with
    | .error fault => [.error fault]
    | .ok item => ofItem path item

end Operation

end OpenApiClient

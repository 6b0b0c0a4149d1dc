import OpenApiClient.Operation.Parameter

/-! # Request and response bodies

The content of a request or a response is a mapping from content types to media. A request is
JSON, or it is sent as it is; the type of a response is found by a fixed order of content types.
-/
namespace OpenApiClient
open Schema (RegistryM TypeId)

/-- How the body of a request is sent. -/
inductive BodyEncoding
  | json
  | raw
  deriving DecidableEq

def BodyEncoding.name : BodyEncoding → String
  | json => "json"
  | raw => "raw"

/-- The body of a request. Binary bodies have no type of their own. -/
structure RequestBody where
  typeText : String
  encoding : BodyEncoding
  type : Option TypeId := none
  deriving DecidableEq

namespace Operation

def jsonContent : String := "application/json"

def scimContent : String := "application/scim+json"

def binaryContent : String := "application/octet-stream"

/-- The content types of responses whose schema is used without a model of its own. -/
def anonymousContents : List String :=
  ["text/plain", "text/html", "application/octocat-stream", binaryContent, "*/*"]

/-- A body or a response, with the references to it followed. There are no more references than
nodes in the document. -/
def followWith (document : Value) : (fuel : Nat) → (seen : List String) → Value → Except Fault Value
  | 0, _, _ => .error .endless
  | fuel + 1, seen, node => do
    if ← node.mentions "$ref" then
      let reference ← (← node.require "$ref").asText
      if seen.contains reference then throw (.of (.danglingReference (.text reference)))
      match document.resolve reference with
      | .ok target => followWith document fuel (reference :: seen) target
      | .error .missingEntry => throw (.of (.danglingReference (.text reference)))
      | .error fault => throw fault
    else return node

/-- A body or a response, with the references to it followed. -/
def follow (document node : Value) : Except Fault Value :=
  followWith document (document.weight + 2) [] node

/-- Whether one of the media is binary. -/
def isBinary : Members → Except Fault Bool
  | [] => .ok false
  | (contentType, media) :: rest => do
    if contentType = .text binaryContent then return true
    let schema := (← media.orEmpty.get "schema").orEmpty
    if (← schema.get "type") = .text "string" ∧ (← schema.get "format") = .text "binary" then
      return true
    isBinary rest

/-- The body of a request, none for an operation that sends none or whose body has no schema. -/
def requestBody (document : Value) (settings : Settings) (declaration : Value)
    (operation : String) : RegistryM (Option RequestBody) := do
  match ← declaration.get? "requestBody" with
  | none => return none
  | some body =>
    let body ← follow document body
    match ← (← body.get "content").orEmpty.members with
    | [] => return none
    | (contentType, media) :: rest =>
      if ← isBinary ((contentType, media) :: rest) then
        return some { typeText := "bytes | IO[bytes]", encoding := .raw }
      let schema ← media.orEmpty.get "schema"
      if !schema.isTruthy then return none
      let models := settings.modelsModule
      if contentType = .text jsonContent then
        let name := Naming.spacedWords operation ++ " request"
        let type ← Schema.resolve document (some name) schema false ""
        return some { typeText := ← (← get).typeText models .owned type, encoding := .json, type }
      else
        let type ← Schema.resolve document none schema false ""
        let written ← (← get).typeText models .owned type
        let typeText := if written = "str" then "str | bytes" else written
        return some { typeText, encoding := .raw, type }

/-- Refuses media that prescribe the encoding of their parts. -/
def checkEncoding (media : Value) (contentType : String) : Except Fault Unit := do
  if (← media.get "encoding").isTruthy then throw (.of (.encodedMedia contentType))

/-- The type that a content gives a response. JSON comes first wherever it stands; of the others
only the first content type counts. -/
def contentType (document : Value) (content : Members) (operation : String) :
    RegistryM (Option TypeId) := do
  let name := Naming.spacedWords operation ++ " response"
  let json := (Members.get? content jsonContent).getD .null
  if json ≠ .null then
    checkEncoding json jsonContent
    let schema ← json.get "schema"
    if schema.isTruthy then return ← Schema.resolve document (some name) schema false ""
  match content with
  | [] => return none
  | (first, media) :: _ =>
    let media := media.orEmpty
    if anonymousContents.any (first == .text ·) then
      let schema ← media.get "schema"
      if schema.isTruthy then return ← Schema.resolve document none schema false ""
    else if first = .text scimContent then
      checkEncoding media scimContent
      let schema ← media.get "schema"
      if schema.isTruthy then return ← Schema.resolve document (some name) schema false ""
    throw (.of (.noResponseType first))

/-- The type of the response of an operation: of the first one that it declares. A response without
content has none. -/
def responseType (document declaration : Value) (operation : String) :
    RegistryM (Option TypeId) := do
  let responses := (← declaration.get "responses").orEmpty
  if !responses.isTruthy then throw (.of .noResponses)
  match ← responses.members with
  | [] => throw (.of .noResponses)
  | (_, first) :: _ =>
    let response ← follow document first
    let content := (← response.get "content").orEmpty
    if !content.isTruthy then return none
    contentType document (← content.members) operation

end Operation

end OpenApiClient

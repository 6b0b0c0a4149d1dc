import OpenApiClient.Operation.Body

/-! # Methods of the generated client

An operation of the document becomes one method: its names, its parameters and bodies, the call of
the client that it makes, and its documentation. -/
namespace OpenApiClient
open Schema (RegistryM TypeId logRecord)

/-- The call of the client that a method awaits. -/
structure ClientCall where
  method : Value
  body : Option String := none
  keywords : Members := []
  passesHeaders : Bool := false
  deriving DecidableEq

/-- The parts of the documentation of a method. The link is kept as the document has it. -/
structure MethodDocs where
  summary : String := ""
  method : String := ""
  path : String := ""
  description : String := ""
  link : Value := .text ""
  parameters : List String := []

/-- A method of the generated client. -/
structure ClientMethod where
  operation : String
  method : HttpMethod
  path : String
  tag : String
  name : String
  parameters : List Parameter
  body : Option RequestBody
  response : Option TypeId
  responseText : String
  docs : MethodDocs
  urlCode : String
  call : ClientCall

namespace Operation

/-- The id of an operation: the declared one, or one made of the method and the path. -/
def idOf (declaration : Value) (method : HttpMethod) (path : Scalar) : Except Fault String := do
  let declared ← declaration.get "operationId"
  if declared.isTruthy then return Naming.snakeCase (← declared.asText)
  else return Naming.fallbackId method.name (← (Value.scalar path).asText)

/-- The first part of a collection: the first item of a sequence, the first character of a text,
the value under zero of a mapping. -/
def firstPart : Value → Except Fault Value
  | .mapping ms =>
    match Members.at? ms (.int 0) with
    | some v => .ok v
    | none => .error .missingEntry
  | v => do
    match ← v.elements with
    | first :: _ => return first
    | [] => throw .emptyText

def tagOf (declaration : Value) (operation : String) : Except Fault String := do
  let tags := (← declaration.get "tags").orNone
  let count ← tags.size
  if count ≠ 1 then throw (.of (.tagCount operation count))
  return Naming.snakeCase (← (← firstPart tags).asText)

def bodyExpression : Option RequestBody → String
  | none => "None"
  | some body =>
    match body.encoding with
    | .json => "json.dumps(body).encode()"
    | .raw => "body"

def clientCall (settings : Settings) (operation : String) (method : HttpMethod)
    (body : Option RequestBody) (passesHeaders : Bool) : RegistryM ClientCall := do
  if method = .get then return { method := .text "get", passesHeaders }
  match settings.exceptionalCall? operation with
  | some call =>
    logRecord .debug .operations
      (operation ++ " uses " ++ call.clientMethod.display ++ ": " ++ call.reason.display)
    return { method := call.clientMethod, body := bodyExpression body
             keywords := Members.setAll [] (← call.keywords.entries), passesHeaders }
  | none =>
    if method ∈ [HttpMethod.post, .put, .patch, .delete] then
      return { method := .text method.key, body := bodyExpression body, passesHeaders }
    else throw (.of (.unauthenticated operation))

def docsOf (declaration : Value) (method : HttpMethod) (path : String)
    (parameters : List Parameter) : Except Fault MethodDocs := do
  let summary ← (← declaration.get "summary").stripped
  let external := (← declaration.get "externalDocs").orEmpty
  let description ← (← declaration.get "description").stripped
  return { summary := String.ofList (summary.toList.reverse.dropWhile (· == '.')).reverse
           method := method.name, path, description
           link := (← external.get? "url").getD (.text "")
           parameters := ← parameters.mapM parameterDoc }

/-- The identifiers of the parameters that go into the path, by name; the last one of a name
counts. -/
def pathIdentifiers (parameters : List Parameter) : Table String String :=
  Table.ofList ((parameters.filter (·.place == .path)).map fun p => (p.name, p.identifier))

/-- The statements that give a method its address. Every placeholder has to be a parameter. -/
def urlCode (path : String) (parameters : List Parameter) : Except Fault String := do
  let template ← Url.PathTemplate.parse path
  let identifiers := pathIdentifiers parameters
  match template.placeholders.find? fun name => (identifiers.lookup name).isNone with
  | some name =>
    throw (.of (.malformedTemplate (.text path)
      (.text ("placeholder " ++ Text.quoted name ++ " has no path parameter"))))
  | none =>
    template.code (queryTable parameters) fun name =>
      match identifiers.lookup name with
      | some identifier => .ok identifier
      | none => .error .missingEntry

def build (document : Value) (shared : Members) (settings : Settings) (listed : ListedOperation) :
    RegistryM ClientMethod := do
  let { path, method, declaration } := listed
  let operation ← idOf declaration method path
  let tag ← tagOf declaration operation
  let body ← requestBody document settings declaration operation
  let declared ← (← declaration.get "parameters").orNone.elements
  let parameters ← classifyAll document shared settings declared
  let response ← responseType document declaration operation
  let path ← (Value.scalar path).asText
  let urlCode ← urlCode path parameters
  let call ← clientCall settings operation method body (parameters.any (·.place == .header))
  let name ← Naming.functionName (← settings.reserved) operation tag
  let responseText ← match response with
    | none => pure "None"
    | some type => (← get).typeText settings.modelsModule .owned type
  let docs ← docsOf declaration method path parameters
  return { operation, method, path, tag, name, parameters, body, response, responseText, docs
           urlCode, call }

end Operation

end OpenApiClient

import OpenApiClient.Operation.Method
import OpenApiClient.Package.Docstring

/-! # Methods as they are written

Everything that a method takes is a keyword. Its statements build the address and the headers, and
await one call of the client. -/
namespace OpenApiClient.ClientMethod

def docLines (docs : MethodDocs) : List String :=
  let summary := if docs.summary = "" then [] else [docs.summary ++ ".", ""]
  let description := if docs.description = "" then [] else "" :: Text.lines docs.description
  let link := if docs.link.isTruthy then ["", "FROM: <" ++ docs.link.display ++ ">"] else []
  let parameters :=
    if docs.parameters.isEmpty then []
    else ["", "**Parameters:**", ""] ++ docs.parameters.flatMap Text.lines
  summary ++
    ["This function performs a `" ++ docs.method ++ "` to the `" ++ docs.path ++ "` endpoint."] ++
    description ++ link ++ parameters

def docstring (m : ClientMethod) : String := Package.docstring 8 (docLines m.docs)

def parameterLine (p : Parameter) : String :=
  let declared := p.identifier ++ ": " ++ p.typeText
  match p.preset with
  | some preset => declared ++ " = " ++ preset
  | none => declared

/-- What a method takes after itself, one line each; nothing at all for a method that takes
nothing. -/
def signature (m : ClientMethod) : List String :=
  let body := match m.body with
    | some body => ["body: " ++ body.typeText]
    | none => []
  match m.parameters.map parameterLine ++ body with
  | [] => []
  | lines => "*" :: lines

def headerLines (m : ClientMethod) : List String :=
  match m.parameters.filter (·.place == .header) with
  | [] => []
  | headers =>
    "headers: dict[str, str] = \x7b\x7d" :: headers.flatMap fun p =>
      let assign := "headers[" ++ Text.quoted p.name ++ "] = " ++ p.expression
      match p.condition with
      | none => [assign]
      | some condition => ["if " ++ condition ++ ":", "    " ++ assign]

def callArguments (call : ClientCall) : List String :=
  ["url"] ++ call.body.toList ++
    call.keywords.map (fun (key, value) => key.display ++ "=" ++ value.literal) ++
    (if call.passesHeaders then ["headers=headers"] else [])

def statements (m : ClientMethod) : String :=
  let call := "return await self.client." ++ m.call.method.display ++ "(" ++
    String.intercalate ", " (callArguments m.call) ++ ")"
  String.intercalate "\n" (Text.lines m.urlCode ++ m.headerLines ++ [call])

end OpenApiClient.ClientMethod

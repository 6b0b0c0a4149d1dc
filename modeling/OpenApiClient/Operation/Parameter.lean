import OpenApiClient.Operation.Listing
import OpenApiClient.Schema.Resolve
import OpenApiClient.Schema.TypeText
import OpenApiClient.Settings
import OpenApiClient.Text.Basic
import OpenApiClient.Url.PathTemplate

/-! # Parameters of operations

A parameter is classified by its place in the request and by the type of its schema. The type
decides how the value is written, and what stands for an optional parameter that is not given. -/
namespace OpenApiClient
open Schema (Kind Primitive Registry RegistryM TypeId logRecord)

/-- The places of a request that parameters go to. -/
inductive Place
  | path
  | query
  | header
  | cookie
  deriving DecidableEq

namespace Place

def name : Place → String
  | path => "path"
  | query => "query"
  | header => "header"
  | cookie => "cookie"

def ofValue? : Value → Option Place
  | .text "path" => some path
  | .text "query" => some query
  | .text "header" => some header
  | .text "cookie" => some cookie
  | _ => none

theorem ofValue?_name (p : Place) : ofValue? (.text p.name) = some p := by cases p <;> rfl

end Place

/-- How the value of a parameter becomes a text. -/
inductive Serialization
  | verbatim
  | display
  | calendar
  | joined
  deriving DecidableEq

def Serialization.name : Serialization → String
  | verbatim => "verbatim"
  | display => "display"
  | calendar => "calendar"
  | joined => "joined"

/-- A classified parameter. -/
structure Parameter where
  name : String
  identifier : String
  place : Place
  type : TypeId
  typeText : String
  required : Bool
  /-- What stands for a parameter that is not given. -/
  preset : Option String := none
  /-- When an optional parameter is sent. -/
  condition : Option String := none
  /-- The description as the document has it. -/
  description : Value := .text ""
  /-- The description of the schema, or of the model that it refers to. -/
  schemaDescription : String := ""
  serialization : Serialization
  /-- The text of the value in the generated code. -/
  expression : String
  inQueryTable : Bool := false

namespace Operation

/-- The definition of a parameter and the name that it is shared under, empty for one that is not
shared. -/
def lookupParameter (shared : Members) (parameter : Value) : Except Fault (Value × String) := do
  if ← parameter.mentions "$ref" then
    let reference ← parameter.require "$ref"
    match (Members.at? shared (← reference.asScalar)).getD .null, reference with
    | .null, _ => throw (.of (.unknownParameter reference))
    | found, .text s => return (found, Text.lastField '/' s)
    | found, _ => return (found, "")
  else return (parameter, "")

/-- The schema of a parameter: its own, or the one of its first media type. -/
def parameterSchema (item : Value) : Except Fault Value := do
  match ← item.get? "schema" with
  | some schema => return schema.orEmpty
  | none =>
    match ← (← item.get "content").orEmpty.members with
    | [] => return .empty
    | (_, media) :: _ => return (← media.get "schema").orEmpty

def serializationOf (r : Registry) (type : TypeId) : Serialization :=
  match r.baseKind? type with
  | some (.primitive .date) | some (.primitive .dateTime) => .calendar
  | some (.primitive .string) => .verbatim
  | some .array => .joined
  | _ => .display

def isTextual (r : Registry) (type : TypeId) : Bool :=
  r.baseKind? type == some (.primitive .string) || r.baseKind? type == some .enumeration

def serialized (r : Registry) (type : TypeId) (identifier : String) (separator : Value) :
    Serialization → String
  | .calendar => identifier ++ ".isoformat()"
  | .verbatim => identifier
  | .joined =>
    if (r.item? type).any (isTextual r) then
      separator.literal ++ ".join(" ++ identifier ++ ")"
    else separator.literal ++ ".join(str(v) for v in " ++ identifier ++ ")"
  | .display =>
    if r.baseKind? type == some (.primitive .boolean) then "str(" ++ identifier ++ ").lower()"
    else "str(" ++ identifier ++ ")"

/-- What stands for an optional value of some kinds: the empty one. -/
def emptyPreset? : Kind → Option String
  | .primitive .string => some "\"\""
  | .primitive .integer => some "0"
  | .primitive .boolean => some "False"
  | .array => some "()"
  | _ => none

/-- When an optional value with an empty preset is sent. -/
def presence (kind : Kind) (identifier : String) : String :=
  if kind = .primitive .integer then identifier ++ " > 0" else identifier

/-- The description of a parameter's schema, or of the model that the schema refers to. -/
def schemaDescription (r : Registry) (schema : Value) (type : TypeId) : Except Fault String := do
  let own ← (← schema.get "description").stripped
  if own = "" then
    if ← schema.mentions "$ref" then r.docs type else return own
  else return own

/-- Whether a parameter in this place has an entry in the query table; one that is not sent is
reported. -/
def checkSending (item : Value) (name : String) (place : Place) : RegistryM Bool := do
  match place with
  | .query =>
    let style := (← item.get? "style").getD (.text "form")
    if style = .text "form" then
      if (← item.get "allowEmptyValue").isTruthy then throw (.of (.emptyAllowed name))
      return true
    else
      logRecord .warning .parameters
        ("query parameter " ++ Text.quoted name ++ " uses style " ++ style.literal ++
          "; it is not sent")
      return false
  | .cookie =>
    logRecord .warning .parameters ("cookie parameter " ++ Text.quoted name ++ " is not sent")
    return false
  | .path | .header => return false

/-- The type of a parameter, what stands for it when it is not given, and when it is sent. -/
def presenceOf (document schema : Value) (required : Bool) (type : TypeId)
    (identifier hint : String) : RegistryM (TypeId × Option String × Option String) := do
  if required then return (type, none, none)
  let kind? := (← get).baseKind? type
  match kind?, kind?.bind emptyPreset? with
  | some kind, some preset => return (type, some preset, some (presence kind identifier))
  | _, _ =>
    let type ← Schema.resolve document none schema true hint
    return (type, some "None", some (identifier ++ " is not None"))

/-- A parameter as an operation declares it, classified. -/
def classify (document : Value) (shared : Members) (settings : Settings) (parameter : Value) :
    RegistryM Parameter := do
  let (item, component) ← lookupParameter shared parameter
  let rawName := (← item.get? "name").getD (.text "")
  let rawPlace := (← item.get? "in").getD (.text "query")
  let place ← match Place.ofValue? rawPlace with
    | some place => pure place
    | none => throw (.of (.unknownLocation rawName rawPlace))
  let name ← rawName.asText
  let identifier := Naming.identifier (← settings.reserved) name
  let required := place = .path || (← item.get "required").isTruthy
  let schema ← parameterSchema item
  let hint := if component = "" then name else component
  let type ← Schema.resolve document none schema false hint
  let described ← schemaDescription (← get) schema type
  let inQueryTable ← checkSending item name place
  let (type, preset, condition) ← presenceOf document schema required type identifier hint
  let r ← get
  let serialization := serializationOf r type
  return { name, identifier, place, type, required, preset, condition, serialization, inQueryTable
           typeText := ← r.typeText settings.modelsModule .accepted type
           description := (← item.get "description").orBlank
           schemaDescription := described
           expression := serialized r type identifier settings.arraySeparator serialization }

/-- The parameters of an operation, classified in their order. No two have one identifier. -/
def classifyAll (document : Value) (shared : Members) (settings : Settings)
    (parameters : List Value) : RegistryM (List Parameter) :=
  parameters.foldlM (fun classified parameter => do
    let p ← classify document shared settings parameter
    match classified.find? (·.identifier == p.identifier) with
    | some first =>
      throw (.of (.duplicateParameter (.text p.identifier) (.text first.name) (.text p.name)))
    | none => return classified ++ [p]) []

/-- The query table of some parameters, sorted by wire name. -/
def queryTable (parameters : List Parameter) : Url.QueryTable :=
  Table.sorted (Table.ofList ((parameters.filter Parameter.inQueryTable).map fun p =>
    (p.name, ⟨p.expression, p.condition⟩)))

/-- The longer description of a parameter: its own one, or the one of its schema. -/
def longerDescription (p : Parameter) : Except Fault String := do
  if !p.description.isTruthy then return p.schemaDescription
  if p.schemaDescription.length < (← p.description.size) then p.description.asText
  else return p.schemaDescription

/-- The line about a parameter in the documentation of its operation. -/
def parameterDoc (p : Parameter) : Except Fault String := do
  let text := Text.plain (← longerDescription p)
  let text := String.ofList (text.toList.reverse.dropWhile (· == '.')).reverse
  let suffix := if text = "" then "" else " -- " ++ text ++ "."
  return "* `" ++ p.identifier ++ ": " ++ p.typeText ++ "`" ++ suffix

end Operation

end OpenApiClient

import OpenApiClient.Schema.Layer
import OpenApiClient.Schema.Registry

/-! # Types of schemas

Resolving a schema gives the id of its type. A schema with a preferred name gets a type of its
own; one without gets the type of its shape, the same for every schema of that shape; a reference
gets the type of its target, which is registered before the target is described, so that targets
may contain references to themselves. -/
namespace OpenApiClient.Schema

/-- Resolves a part of a schema, given a hint for the names of models in it. -/
abbrev Resolver := Value → String → RegistryM TypeId

def resolvePart (resolve : Resolver) (part : Part) : RegistryM TypeId := do
  let id ← resolve part.schema part.hint
  if part.described then
    let _ ← part.schema.orEmpty.get "description"
  return id

/-- The type of a schema, without a name: its layer, with the types of its parts resolved in their
order. -/
def describe (document : Value) (resolve : Resolver) (schema : Value) (hint : String) :
    RegistryM Entry := do
  let description := (← schema.get "description").orBlank
  let outer ← layer document schema hint
  let ids ← outer.parts.mapM (resolvePart resolve)
  return { body := outer.frame.fill ids, description }

/-- Registers a type under a name before it is described. -/
def register (name : String) (remember : TypeId → RegistryM Unit) (describe : RegistryM Entry) :
    RegistryM TypeId := do
  let id ← append { body := .primitive .any, name := some name }
  remember id
  complete id { ← describe with name := some name }
  return id

def resolveRef (document : Value) (resolve : Resolver) (reference : Value) : RegistryM TypeId := do
  let reference ← reference.asText
  match (← get).refs.lookup reference with
  | some id => return id
  | none =>
    let target ← lookup document reference
    let name ← claim (Text.lastField '/' reference)
    let id ← register name (rememberRef reference) (describe document resolve target name)
    logRecord .debug .types ("registered " ++ reference ++ " as " ++ name)
    return id

/-- The name hint of a type that needs a name: the title, the hint, or a word for its kind. -/
def modelName (schema : Value) (hint : String) (body : Body) : Except Fault String := do
  let title ← schema.get "title"
  if title.isTruthy then title.asText
  else if hint ≠ "" then return hint
  else
    match body with
    | .enumeration _ => return "Enum"
    | _ => return "Object"

/-- Whether a schema is nothing but a reference. -/
def isReference (schema : Value) : Except Fault Bool := do
  if ← schema.mentions "$ref" then return !(← isNullable schema) else return false

/-- The type of a schema without a preferred name. The schemas that are being described since the
last reference are in `active`, each with the count of types when that began; one of them met again
with no type registered in between has no end. -/
def resolveWith (document : Value) : (fuel : Nat) → (active : List (Value × Nat)) → Resolver
  | 0, _ => fun _ _ => throw .endless
  | fuel + 1, active => fun schema hint => do
    let schema := schema.orEmpty
    if ← isReference schema then
      resolveRef document (resolveWith document fuel []) (← schema.require "$ref")
    else
      let key ← structuralKey schema
      let r ← get
      match r.anonymous.lookup key with
      | some id => return id
      | none =>
        let start := (schema, r.entries.size)
        if active.contains start then throw .endless
        let entry ← describe document (resolveWith document fuel (start :: active)) schema hint
        let entry ←
          if entry.body.needsName then
            pure { entry with name := some (← claim (← modelName schema hint entry.body)) }
          else pure entry
        let id ← append entry
        remember key id
        return id

/-- How deep schemas of a document can be described. Every step down either strips the schema, or
takes up one of the nodes of the document, or meets a reference for the first time. -/
def resolveDepth (document schema : Value) : Nat :=
  Nat.pow (document.weight + schema.weight + 2) 3

/-- The type of a schema without a preferred name. -/
def resolveAnonymous (document : Value) : Resolver := fun schema hint =>
  resolveWith document (resolveDepth document schema) [] schema hint

/-- The type of a schema, which admits null besides if `nullable` is set, on a stack that has room for
`room` resolutions inside one another. A preferred name gives the schema a type of its own; the hint
names the models in a schema that need a name. -/
def resolveWithin (room : Nat) (document : Value) (preferred : Option String) (schema : Value)
    (nullable : Bool) (hint : String) : RegistryM TypeId := do
  let schema := schema.orEmpty
  let id ←
    match preferred with
    | none | some "" => resolveWith document room [] schema hint
    | some preferred =>
      let name ← claim preferred
      register name (fun _ => pure ()) (describe document (resolveWith document room []) schema name)
  if nullable then optional id else return id

/-- The type of a schema on a stack that has room for whatever the document asks for. -/
def resolve (document : Value) (preferred : Option String) (schema : Value) (nullable : Bool)
    (hint : String) : RegistryM TypeId :=
  resolveWithin (resolveDepth document schema.orEmpty) document preferred schema nullable hint

/-- The resolutions that there is room for at most: each of them is a call, and describes its schema in
another one. -/
def defaultRoom : Nat := callLimit / 2

end OpenApiClient.Schema

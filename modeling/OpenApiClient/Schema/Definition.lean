import OpenApiClient.Naming.SnakeCase
import OpenApiClient.Schema.TypeText
import OpenApiClient.Text.Identifier

/-! # Definitions of models

Every type with a name becomes a definition in the models module, in the order of the ids.
Definitions refer to models by quoted names, since these may come later. -/
namespace OpenApiClient.Schema

/-- A property of a model. -/
structure ModelField where
  key : Scalar
  typeText : String
  description : String
  deriving DecidableEq

/-- The form of a model. A record whose keys are all names is written as a class. -/
inductive ModelForm
  | record (fields : List ModelField) (classSyntax : Bool)
  | enumeration (members : List (String × String))
  | synonym (target : String)
  deriving DecidableEq

/-- A model. -/
structure Model where
  name : String
  docs : String
  form : ModelForm
  deriving DecidableEq

/-- The capitals of a value, or a word for a value without letters and digits. -/
def memberBase (value : String) : String :=
  let name := String.ofList ((Naming.snakeChars value.toList).map Char.toUpper)
  let name := if name = "" then "EMPTY" else name
  if name.toList.head?.any Naming.isPlainDigit then "VALUE_" ++ name else name

/-- The names of the members of an enumeration after those that are taken. -/
def memberNames (taken : List String) : List String → List String
  | [] => []
  | value :: rest =>
    let name := freeName taken (memberBase value) "_"
    name :: memberNames (name :: taken) rest

/-- The members of an enumeration: a name and a literal for each value. -/
def enumMembers (values : List String) : List (String × String) :=
  (memberNames [] values).zip (values.map Text.quoted)

/-- Whether a property may be declared as a variable of a class. -/
def isClassKey (key : Scalar) : Except Fault Bool :=
  match key with
  | .text s => .ok (Text.isIdentifier s && !Naming.keywords.contains s)
  | _ => .error .wrongType

/-- Whether all keys of a record may be declared as variables of a class. -/
def allClassKeys : List Scalar → Except Fault Bool
  | [] => .ok true
  | key :: rest => do if ← isClassKey key then allClassKeys rest else return false

namespace Registry

/-- Whether the written form of a type holds the name of a model. -/
def mentionsModel (r : Registry) (id : TypeId) : Bool :=
  match r.entries[id]? with
  | none => false
  | some e =>
    e.name.isSome || e.body.children.any fun child =>
      if child < id then mentionsModel r child else false
termination_by id

/-- The body of a type as it is written in the models module, quoted if it holds the name of a
model. -/
def bodyText (r : Registry) (body : Body) : Except Fault String := do
  let written ← body.typeText (r.typeTextWith "") .owned
  return if body.children.any r.mentionsModel then Text.quoted written else written

/-- A type as it is written in the models module. -/
def forwardText (r : Registry) (id : TypeId) : Except Fault String := do
  let e ← r.entry id
  match e.name with
  | some name => return Text.quoted name
  | none => r.bodyText e.body

def modelField (r : Registry) (f : Field) : Except Fault ModelField := do
  let written ← r.forwardText f.type
  let typeText := if f.required then written else "NotRequired[" ++ written ++ "]"
  return ⟨f.key, typeText, ← f.description.stripped⟩

/-- The model of a type, none for a type without a name. -/
def model? (r : Registry) (e : Entry) : Except Fault (Option Model) := do
  match e.name with
  | none => return none
  | some name =>
    let docs ← e.description.stripped
    let form ← match e.body with
      | .object fields => do
        let written ← fields.mapM r.modelField
        pure (ModelForm.record written (← allClassKeys (fields.map Field.key)))
      | .enumeration values => pure (.enumeration (enumMembers values))
      | body => do pure (.synonym (← r.bodyText body))
    return some ⟨name, docs, form⟩

/-- The models of a registry, in the order in which their types were registered. -/
def models (r : Registry) : Except Fault (List Model) := do
  return (← r.entries.toList.mapM r.model?).filterMap id

end Registry

end OpenApiClient.Schema

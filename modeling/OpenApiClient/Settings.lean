import OpenApiClient.Document.Access
import OpenApiClient.Naming.SnakeCase

/-! # Settings of a generation run

Settings come from outside, like a document, and are not checked beforehand: a setting that is only
written into the generated code may be any value. -/
namespace OpenApiClient

/-- A client call that one operation makes in place of the call of its verb. -/
structure ExceptionalCall where
  clientMethod : Value
  /-- The keywords of the call: a mapping, or pairs that make one. -/
  keywords : Value := .empty
  reason : Value := .text ""
  deriving DecidableEq

/-- The settings of a run. -/
structure Settings where
  /-- What stands between the values of a parameter with several. -/
  arraySeparator : Value
  /-- The name of the module that holds the models. -/
  modelsModule : Value
  /-- The words that no generated name takes. -/
  reservedWords : List String
  /-- The exceptional calls by operation id. -/
  exceptionalCalls : List (String × ExceptionalCall)
  deriving DecidableEq

namespace Settings

/-- The names that the generated code binds or imports for its own use. -/
def generatedNames : List String :=
  ["self", "body", "url", "query", "query_args", "headers", "models", "json", "urllib", "datetime"]

/-- The words that no generated name takes unless the settings say otherwise. -/
def defaultReservedWords : List String := Naming.keywords ++ ["type", "ref"] ++ generatedNames

/-- The operation that fetches the credentials which all other calls need. -/
def tokenCall : String × ExceptionalCall :=
  ("apps_create_installation_access_token",
    { clientMethod := .text "post_media"
      keywords := .mapping [(.text "media_type", .text "application/json"),
        (.text "authentication", .text "jwt")]
      reason := .text "fetches the installation token with the app JWT" })

def default : Settings where
  arraySeparator := .text " "
  modelsModule := .text "models"
  reservedWords := defaultReservedWords
  exceptionalCalls := [tokenCall]

instance : Inhabited Settings := ⟨default⟩

/-- The words that no generated name takes, the models module included. A scalar that is no text
is none, and a collection does not belong among words. -/
def reserved (s : Settings) : Except Fault (List String) :=
  match s.modelsModule with
  | .text name => .ok (name :: s.reservedWords)
  | .scalar _ => .ok s.reservedWords
  | _ => .error .wrongType

/-- The words that no generated name takes in their order, which only texts have. -/
def sortedReserved (s : Settings) : Except Fault (List String) := do
  let words := (← s.modelsModule.asText) :: s.reservedWords
  return (words.mergeSort fun a b => decide (a ≤ b)).eraseDups

def exceptionalCall? (s : Settings) (operation : String) : Option ExceptionalCall :=
  s.exceptionalCalls.lookup operation

def ofEnvironment (valueOf : String → Option Value) : Settings where
  arraySeparator := (valueOf "CLIENTGEN_ARRAY_SEPARATOR").getD default.arraySeparator
  modelsModule := (valueOf "CLIENTGEN_MODELS_MODULE").getD default.modelsModule
  reservedWords := defaultReservedWords
  exceptionalCalls := [tokenCall]

/-- Changes to settings; what is missing stays as it is. -/
structure Overrides where
  arraySeparator : Option Value := none
  modelsModule : Option Value := none
  reservedWords : Option (List String) := none
  exceptionalCalls : Option (List (String × ExceptionalCall)) := none

/-- The settings with changes. -/
def override (s : Settings) (o : Overrides) : Settings where
  arraySeparator := o.arraySeparator.getD s.arraySeparator
  modelsModule := o.modelsModule.getD s.modelsModule
  reservedWords := o.reservedWords.getD s.reservedWords
  exceptionalCalls := o.exceptionalCalls.getD s.exceptionalCalls

/-- A models module that is a text is among the words that no generated name takes. -/
theorem reserved_of_modelsModule {s : Settings} {name : String} (h : s.modelsModule = .text name) :
    s.reserved = .ok (name :: s.reservedWords) := by simp [reserved, h]

end Settings

end OpenApiClient

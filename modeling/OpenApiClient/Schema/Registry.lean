import OpenApiClient.Failure
import OpenApiClient.Log
import OpenApiClient.Naming.SnakeCase
import OpenApiClient.Schema.Entry

/-! # The type registry

The registry numbers the types of a run. It remembers the type of every shape and of every reference
that it has met, and it hands out each model name once. A step on the registry keeps what was
registered before it failed. -/
namespace OpenApiClient.Schema

/-- The names that the models module binds for its own use. -/
def takenNames : List String :=
  ["Any", "IO", "Mapping", "NotRequired", "Sequence", "TypeAlias", "TypedDict", "None", "True",
    "False"]

/-- The types of a run. -/
structure Registry where
  /-- The types by id. -/
  entries : Array Entry := #[]
  /-- The types of shapes without a name, and of optional types by what they are an option of. -/
  anonymous : List (String × TypeId) := []
  /-- The types of references. -/
  refs : List (String × TypeId) := []
  /-- The model names that are taken. -/
  names : List String := takenNames
  /-- What was logged, newest first. -/
  log : List LogRecord := []

/-- A step on the registry. -/
abbrev RegistryM := ExceptT Fault (StateM Registry)

/-- The first of `base`, `base` and a number from two on that is not taken. The numbers end before
the names that are taken do, so one is always found. -/
def freeName (taken : List String) (base separator : String) : String :=
  if base ∈ taken then
    let numbers := List.range (taken.length + 1)
    let numbered := numbers.map fun i => base ++ separator ++ toString (i + 2)
    (numbered.find? (· ∉ taken)).getD base
  else base

namespace Registry

def body? (r : Registry) (id : TypeId) : Option Body := r.entries[id]?.map Entry.body

def push (r : Registry) (e : Entry) : Registry := { r with entries := r.entries.push e }

def replace (r : Registry) (id : TypeId) (e : Entry) : Registry :=
  { r with entries := r.entries.setIfInBounds id e }

def logged (r : Registry) (record : LogRecord) : Registry := { r with log := record :: r.log }

/-- What was logged, oldest first. -/
def records (r : Registry) : List LogRecord := r.log.reverse

end Registry

def logRecord (level : LogLevel) (source : LogSource) (message : String) : RegistryM Unit :=
  modify (·.logged ⟨level, source, message⟩)

def append (e : Entry) : RegistryM TypeId := do
  let r ← get
  set (r.push e)
  return r.entries.size

/-- Takes a model name for a name of any form. -/
def claim (name : String) : RegistryM String := do
  let r ← get
  let free := freeName r.names (Naming.className name) ""
  set { r with names := free :: r.names }
  return free

def remember (key : String) (id : TypeId) : RegistryM Unit :=
  modify fun r => { r with anonymous := (key, id) :: r.anonymous }

def rememberRef (reference : String) (id : TypeId) : RegistryM Unit :=
  modify fun r => { r with refs := (reference, id) :: r.refs }

/-- Completes the entry of a type that was registered by name alone. -/
def complete (id : TypeId) (e : Entry) : RegistryM Unit := modify (·.replace id e)

/-- The key of the type that is optional of another one. -/
def optionalKey (inner : TypeId) : String := "optional:" ++ toString inner

/-- The type that admits null besides the values of another one. -/
def optional (inner : TypeId) : RegistryM TypeId := do
  let r ← get
  match r.body? inner with
  | some (.optional _) => return inner
  | _ =>
    match r.anonymous.lookup (optionalKey inner) with
    | some id => return id
    | none =>
      let id ← append { body := .optional inner }
      remember (optionalKey inner) id
      return id

@[simp] theorem Registry.size_push (r : Registry) (e : Entry) :
    (r.push e).entries.size = r.entries.size + 1 := by simp [Registry.push]

@[simp] theorem Registry.size_replace (r : Registry) (id : TypeId) (e : Entry) :
    (r.replace id e).entries.size = r.entries.size := by simp [Registry.replace]

end OpenApiClient.Schema

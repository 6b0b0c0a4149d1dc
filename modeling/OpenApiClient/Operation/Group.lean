import OpenApiClient.Operation.Method

/-! # Groups of methods

The methods of one tag make a group, which becomes a class in a module of its own. Within a group
the names of methods are made different: a repeated name gets the verb behind it, and a name that
is repeated even so gets a number. -/
namespace OpenApiClient
open Schema (RegistryM logRecord)

/-- The methods of a tag. -/
structure TagGroup where
  /-- The name of the module. -/
  name : String
  className : String
  methods : List ClientMethod := []

namespace Operation

/-- The names with the verb behind every repetition. -/
def appendVerbs (seen : List String) : List (String × HttpMethod) → List String
  | [] => []
  | (name, method) :: rest =>
    if name ∈ seen then (name ++ "_" ++ method.key) :: appendVerbs seen rest
    else name :: appendVerbs (name :: seen) rest

/-- The names with their count behind every repetition. -/
def appendCounts (seen : List String) : List String → List String
  | [] => []
  | name :: rest =>
    let earlier := seen.count name
    (if earlier = 0 then name else name ++ "_" ++ toString (earlier + 1)) ::
      appendCounts (name :: seen) rest

def distinctNames (methods : List (String × HttpMethod)) : List String :=
  appendCounts [] (appendVerbs [] methods)

/-- Gives the methods of a group different names, and reports the verbs that were put behind
names. -/
def renameMethods (group : TagGroup) : RegistryM TagGroup := do
  let names := group.methods.map fun m => (m.name, m.method)
  for (m, renamed) in group.methods.zip (appendVerbs [] names) do
    if renamed ≠ m.name then
      logRecord .warning .operations
        (group.name ++ ": renamed duplicate method " ++ m.name ++ " to " ++ renamed)
  let methods := group.methods.zip (distinctNames names)
  return { group with methods := methods.map fun (m, name) => { m with name := name } }

/-- The groups with a method added: to the group of its module, or to a new one at the end. -/
def addToGroup (groups : List TagGroup) (moduleName : String) (m : ClientMethod) : List TagGroup :=
  if groups.any (·.name == moduleName) then
    groups.map fun g => if g.name = moduleName then { g with methods := g.methods ++ [m] } else g
  else groups ++ [{ name := moduleName, className := Naming.className m.tag, methods := [m] }]

/-- The method for an operation; a failure is located in the operation. -/
def buildLocated (document : Value) (shared : Members) (settings : Settings)
    (listed : ListedOperation) : RegistryM ClientMethod :=
  let location : Location :=
    { operation := (idOf listed.declaration listed.method listed.path).toOption.elim .null .text
      method := .text listed.method.name
      path := .scalar listed.path }
  ExceptT.adapt (Fault.locate location) (build document shared settings listed)

def addOperation (document : Value) (shared : Members) (settings : Settings)
    (groups : List TagGroup) (listed : ListedOperation) : RegistryM (List TagGroup) := do
  let m ← buildLocated document shared settings listed
  let moduleName := Naming.identifier (← settings.reserved) m.tag
  logRecord .debug .operations
    (m.method.name ++ " " ++ m.path ++ " -> " ++ moduleName ++ "." ++ m.name)
  return addToGroup groups moduleName m

/-- The groups of a document, sorted by module. -/
def groups (document : Value) (settings : Settings) : RegistryM (List TagGroup) := do
  let shared ← sharedParameters document
  let groups ← (listing document).foldlM
    (fun groups listed => do
      let listed : ListedOperation ← (listed : Except Fault ListedOperation)
      addOperation document shared settings groups listed) ([] : List TagGroup)
  let groups ← groups.mapM renameMethods
  let count := groups.foldl (fun count g => count + g.methods.length) 0
  logRecord .info .operations
    ("built " ++ toString count ++ " operations in " ++ toString groups.length ++ " tag groups")
  return groups.mergeSort fun a b => decide (a.name ≤ b.name)

end Operation

end OpenApiClient

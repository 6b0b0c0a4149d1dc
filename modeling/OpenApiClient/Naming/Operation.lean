import OpenApiClient.Failure
import OpenApiClient.Naming.SnakeCase

/-! # Names of operations

A method is named by the id of its operation without the tag in front. An operation without an id
gets one from its verb and its path: `list_items`, `get_item`, `create_item`. -/
namespace OpenApiClient.Naming

/-- The id without the repetitions of the tag in front of it, each followed by underscores or the
end. -/
def stripTagChars (tag oid : List Char) : List Char :=
  if tag ≠ [] ∧ (oid = tag ∨ (tag ++ ['_']).isPrefixOf oid = true) then
    stripTagChars tag ((oid.drop tag.length).dropWhile (· == '_'))
  else oid
termination_by oid.length
decreasing_by
  rename_i h
  obtain ⟨htag, h⟩ := h
  have hpos : 0 < tag.length := List.length_pos_iff.mpr htag
  have hle : tag.length ≤ oid.length := by
    rcases h with h | h
    · simp [h]
    · have := (List.isPrefixOf_iff_prefix.mp h).length_le
      simp at this
      omega
  have hdrop : ((oid.drop tag.length).dropWhile (· == '_')).length ≤ (oid.drop tag.length).length :=
    (List.dropWhile_sublist _).length_le
  simp only [List.length_drop] at hdrop
  omega

/-- The id without the tag in front of it, and without underscores in front. -/
def stripTag (oid tag : String) : String :=
  String.ofList ((stripTagChars tag.toList oid.toList).dropWhile (· == '_'))

/-- The method name of an operation: its id without the tag, or the whole id if nothing is left. -/
def functionName (reserved : List String) (oid tag : String) : Except Fault String :=
  let stripped := stripTag oid tag
  let name := if stripped = "" then oid else stripped
  if name = "" then .error .emptyText
  else .ok (escapeReserved reserved (guardDigit Text.isDigitSign name))

def plural (word : String) : String :=
  if Text.endsWith word "s" then word
  else if Text.endsWith word "y" && !(["ay", "ey", "oy", "uy"].any (Text.endsWith word)) then
    Text.dropEnd 1 word ++ "ies"
  else word ++ "s"

def singular (word : String) : String :=
  if Text.endsWith word "ies" then Text.dropEnd 3 word ++ "y"
  else if Text.endsWith word "ses" then Text.dropEnd 2 word
  else if Text.endsWith word "s" && !Text.endsWith word "ss" then Text.dropEnd 1 word
  else word

/-- The verb of a method, the method itself for one without a verb. -/
def verb : String → String
  | "get" => "list"
  | "post" => "create"
  | "put" => "update"
  | "delete" => "delete"
  | "patch" => "update"
  | other => other

def pathSegments (path : String) : List String := (Text.splitAt '/' path).filter (· != "")

def isPlaceholder (segment : String) : Bool := segment.toList.head? == some '\x7b'

/-- The segments of a path that name a resource. -/
def resourceSegments (path : String) : List String :=
  (pathSegments path).filter (!isPlaceholder ·)

/-- The id of an operation that declares none. -/
def fallbackId (method path : String) : String :=
  let method := Text.lower method
  let hasId := (pathSegments path).any isPlaceholder
  let action := if method = "get" ∧ hasId = true then "get" else verb method
  match (resourceSegments path).map snakeCase with
  | [] => verb method ++ "_root"
  | [resource] =>
    let named :=
      if action = "list" then plural resource
      else if hasId = true ∨ action = "create" then singular resource
      else resource
    action ++ "_" ++ named
  | resources => action ++ "_" ++ String.intercalate "_" resources

end OpenApiClient.Naming

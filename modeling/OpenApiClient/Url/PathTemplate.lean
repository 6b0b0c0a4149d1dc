import OpenApiClient.Naming.Operation
import OpenApiClient.Table
import OpenApiClient.Text.Basic

/-! # Path templates

A path template is literal text with placeholders in braces. It is parsed into segments, and
compiled to the statements that give `url` its value: every placeholder is quoted, and the query
string of a query table follows. -/
namespace OpenApiClient.Url

/-- What is sent for one name of the query string, where the condition holds if there is one. -/
structure Binding where
  expression : String
  condition : Option String := none
  deriving DecidableEq

/-- What is sent for the names of the query string, in this order. -/
abbrev QueryTable := Table String Binding

/-- A stretch of a path template. -/
inductive Segment
  | literal (text : String)
  | placeholder (name : String)
  deriving DecidableEq

namespace Segment

def text : Segment → String
  | literal text => text
  | placeholder name => name

def isPlaceholder : Segment → Bool
  | literal _ => false
  | placeholder _ => true

end Segment

/-- A parsed path. -/
structure PathTemplate where
  source : String
  segments : List Segment

/-- Why a text is no path template. -/
inductive TemplateFlaw
  | nested
  | unopened
  | blank
  | unclosed
  deriving DecidableEq

def TemplateFlaw.reason : TemplateFlaw → String
  | nested => "nested '\x7b'"
  | unopened => "'\x7d' without matching '\x7b'"
  | blank => "empty placeholder"
  | unclosed => "unterminated '\x7b'"

namespace PathTemplate

/-- The literal segment of a text, none for the empty text. -/
def literalSegment (text : List Char) : List Segment :=
  if text.isEmpty then [] else [.literal (String.ofList text)]

mutual

/-- The segments of a text outside of placeholders, `seen` being the literal text before it. -/
def outside (seen : List Char) : List Char → Except TemplateFlaw (List Segment)
  | [] => .ok (literalSegment seen)
  | c :: rest =>
    if c = '\x7b' then (inside [] rest).map (literalSegment seen ++ ·)
    else if c = '\x7d' then .error .unopened
    else outside (seen ++ [c]) rest

/-- The segments of a text within a placeholder, `seen` being the name before it. -/
def inside (seen : List Char) : List Char → Except TemplateFlaw (List Segment)
  | [] => .error .unclosed
  | c :: rest =>
    if c = '\x7b' then .error .nested
    else if c = '\x7d' then
      if seen.all Text.isBlank then .error .blank
      else (outside [] rest).map (.placeholder (String.ofList seen) :: ·)
    else inside (seen ++ [c]) rest

end

def parse (path : String) : Except Fault PathTemplate :=
  match outside [] path.toList with
  | .ok segments => .ok ⟨path, segments⟩
  | .error flaw => .error (.of (.malformedTemplate (.text path) (.text flaw.reason)))

def placeholders (t : PathTemplate) : List String :=
  t.segments.filterMap fun
    | .placeholder name => some name
    | .literal _ => none

def escapeLiteral (text : String) : String :=
  String.ofList (text.toList.flatMap fun c => if c = '\\' || c = '"' then ['\\', c] else [c])

/-- A segment within the literal of the address. -/
def segmentCode (names : String → Except Fault String) : Segment → Except Fault String
  | .literal text => .ok (escapeLiteral text)
  | .placeholder name =>
    (names name).map fun ident => "\x7burllib.parse.quote(str(" ++ ident ++ "), safe='')\x7d"

/-- The statements that add the bindings of a query table to the arguments. -/
def bindingLines (table : QueryTable) : List String :=
  table.flatMap fun (name, binding) =>
    let append := "query_args.append((" ++ Text.quoted name ++ ", " ++ binding.expression ++ "))"
    match binding.condition with
    | none => [append]
    | some condition => ["if " ++ condition ++ ":", "    " ++ append]

/-- The lines that give `url` its value. A placeholder stands for the expression that `names` gives
it. -/
def codeLines (t : PathTemplate) (table : QueryTable) (names : String → Except Fault String) :
    Except Fault (List String) := do
  let path := String.join (← t.segments.mapM (segmentCode names))
  let mark := if t.segments.any Segment.isPlaceholder then "f" else ""
  let plain := mark ++ "\"" ++ path ++ "\""
  if table.isEmpty then return ["url = " ++ plain]
  return ["query_args: list[tuple[str, str]] = []"] ++ bindingLines table ++
    ["query = urllib.parse.urlencode(query_args, quote_via=urllib.parse.quote)",
      "url = f\"" ++ path ++ "?\x7bquery\x7d\" if query else " ++ plain]

/-- The statements that give `url` its value. -/
def code (t : PathTemplate) (table : QueryTable) (names : String → Except Fault String) :
    Except Fault String :=
  (t.codeLines table names).map (String.intercalate "\n")

/-- The expression of a placeholder that has no parameter: its own name as an identifier. -/
def ownNames (name : String) : Except Fault String := .ok (Naming.identifier [] name)

end PathTemplate

end OpenApiClient.Url

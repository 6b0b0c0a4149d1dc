import OpenApiClient.Text.Basic
import OpenApiClient.Text.Lines

/-! # Documentation strings

A documentation string stands between triple double quotes. Inside, backslashes and triple quotes
are escaped, and no line ends in white space. A single line shares its line with both quotes; of
several, the quotes at the end get a line of their own. -/
namespace OpenApiClient.Package

/-- Triple double quotes, each with a backslash. -/
def escapeTriples : List Char → List Char
  | '"' :: '"' :: '"' :: rest => '\\' :: '"' :: '\\' :: '"' :: '\\' :: '"' :: escapeTriples rest
  | c :: rest => c :: escapeTriples rest
  | [] => []

def escapeDocChars (cs : List Char) : List Char :=
  let escaped := escapeTriples (cs.flatMap fun c => if c = '\\' then ['\\', '\\'] else [c])
  (escaped.reverse.dropWhile Text.isBlank).reverse

def escapeDocLine (line : String) : String := String.ofList (escapeDocChars line.toList)

/-- The documentation string of some lines; all but the first are moved to the right. -/
def docstring (indent : Nat) (lines : List String) : String :=
  match lines.map escapeDocLine with
  | [] => "\"\"\"\"\"\""
  | [line] => "\"\"\"" ++ line ++ "\"\"\""
  | first :: others =>
    let pad := Text.spaces indent
    let body := others.map fun line => if line = "" then "" else pad ++ line
    "\"\"\"" ++ first ++ "\n" ++ String.intercalate "\n" body ++ "\n" ++ pad ++ "\"\"\""

def docstringOf (indent : Nat) (text : String) : String := docstring indent (Text.lines text)

end OpenApiClient.Package

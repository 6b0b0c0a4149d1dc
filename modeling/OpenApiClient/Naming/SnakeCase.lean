import OpenApiClient.Text.Basic
import OpenApiClient.Text.Digit
import OpenApiClient.Text.LowerCase

/-! # Snake case and the names made from it

A name of any form is cut into words at its humps and at everything but the small Latin letters and
digits of its lower case. The words make the snake case, joined by underscores, and the names of
classes, each with a capital. -/
namespace OpenApiClient.Naming

def isCapital (c : Char) : Bool := 'A' ≤ c && c ≤ 'Z'

def isSmall (c : Char) : Bool := 'a' ≤ c && c ≤ 'z'

def isPlainDigit (c : Char) : Bool := '0' ≤ c && c ≤ '9'

def isWordChar (c : Char) : Bool := isSmall c || isPlainDigit c

/-- Whether a word starts at `c` between its neighbours: at the last of several capitals before a
small letter, and at a capital after a small letter or a digit of any script. -/
def startsHump (before c : Char) (after : Option Char) : Bool :=
  isCapital c &&
    ((isCapital before && after.any isSmall) || isSmall before || Text.isDecimalDigit before)

/-- The text with an underscore before each hump. -/
def splitHumps : List Char → List Char
  | [] => []
  | [c] => [c]
  | b :: c :: rest =>
    if startsHump b c rest.head? then b :: '_' :: splitHumps (c :: rest)
    else b :: splitHumps (c :: rest)

/-- Lower case with an underscore before each hump; separators stay. -/
def underscored (name : String) : String :=
  String.ofList (Text.lowerChars (splitHumps name.toList))

/-- The words of a name, none of them empty. -/
def wordChars (name : List Char) : List (List Char) :=
  Text.runs (!isWordChar ·) (Text.lowerChars (splitHumps name))

def snakeChars (name : List Char) : List Char := List.intercalate ['_'] (wordChars name)

/-- The snake case of a name: its words joined by underscores. -/
def snakeCase (name : String) : String := String.ofList (snakeChars name.toList)

def spacedWords (name : String) : String :=
  String.ofList (List.intercalate [' '] (wordChars name.toList))

def capitalized : List Char → List Char
  | [] => []
  | c :: rest => c.toUpper :: rest

def classChars (name : List Char) : List Char :=
  match (wordChars name).flatMap capitalized with
  | [] => ['M', 'o', 'd', 'e', 'l']
  | c :: rest => if isPlainDigit c then 'T' :: c :: rest else c :: rest

/-- The class name of a name: its words with capitals and nothing between them, `Model` for a name
without words. -/
def className (name : String) : String := String.ofList (classChars name.toList)

/-- Every character of a word may stand in a word. -/
theorem isWordChar_of_mem_wordChars {name w : List Char} (hw : w ∈ wordChars name) {c : Char}
    (hc : c ∈ w) : isWordChar c = true := by
  have h := Text.not_of_mem_fields (List.mem_filter.mp hw).1 hc
  simpa using h

theorem ne_nil_of_mem_wordChars {name w : List Char} (hw : w ∈ wordChars name) : w ≠ [] := by
  have h := (List.mem_filter.mp hw).2
  simpa using h

/-! ## Identifiers

An identifier of the generated code is a snake case that starts with no digit and is none of the
reserved words, which get an underscore at their end. -/

def keywords : List String :=
  ["False", "None", "True", "and", "as", "assert", "async", "await", "break", "class", "continue",
    "def", "del", "elif", "else", "except", "finally", "for", "from", "global", "if", "import",
    "in", "is", "lambda", "nonlocal", "not", "or", "pass", "raise", "return", "try", "while",
    "with", "yield"]

/-- The name with an underscore at its end if it is reserved. -/
def escapeReserved (reserved : List String) (name : String) : String :=
  if name ∈ reserved then name ++ "_" else name

/-- The name with an underscore before a first digit. -/
def guardDigit (isDigit : Char → Bool) (name : String) : String :=
  match name.toList with
  | c :: _ => if isDigit c then "_" ++ name else name
  | [] => name

/-- The identifier of a name, `param` for a name without words. -/
def identifier (reserved : List String) (name : String) : String :=
  let words := snakeCase name
  escapeReserved reserved (guardDigit isPlainDigit (if words = "" then "param" else words))

end OpenApiClient.Naming

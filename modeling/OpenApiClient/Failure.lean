import OpenApiClient.Document.Value
import OpenApiClient.Files.Problem

/-! # Failures of a generation run

A failure has a cause, which decides its kind, its wording and the exit code of the program, and
it may be located in the operation for which it arose. A fault is a failure, or the sign of a
document that is not of the expected form at all. -/
namespace OpenApiClient

/-- The kinds of failure that a user can mend in the document or the command. -/
inductive FailureKind
  | generation
  | documentLoad
  | tagCardinality
  | unknownParameter
  | unsupportedQuery
  | malformedTemplate
  | unrepresentableResponse
  | missingAuthentication
  | danglingReference
  | duplicateParameter
  deriving DecidableEq

namespace FailureKind

def all : List FailureKind :=
  [generation, documentLoad, tagCardinality, unknownParameter, unsupportedQuery, malformedTemplate,
    unrepresentableResponse, missingAuthentication, danglingReference, duplicateParameter]

def name : FailureKind → String
  | generation => "GenerationError"
  | documentLoad => "SpecLoadError"
  | tagCardinality => "TagCardinalityError"
  | unknownParameter => "UnknownParameterReference"
  | unsupportedQuery => "UnsupportedQuerySemantics"
  | malformedTemplate => "MalformedTemplate"
  | unrepresentableResponse => "UnrepresentableResponse"
  | missingAuthentication => "MissingAuthenticationContext"
  | danglingReference => "DanglingSchemaReference"
  | duplicateParameter => "DuplicateParameterName"

/-- The exit code of a program that ends with a failure of the kind. -/
def exitCode : FailureKind → Nat
  | generation => 1
  | documentLoad => 2
  | tagCardinality => 3
  | unknownParameter => 4
  | unsupportedQuery => 5
  | malformedTemplate => 6
  | unrepresentableResponse => 7
  | missingAuthentication => 8
  | danglingReference => 9
  | duplicateParameter => 10

theorem exitCode_injective {k l : FailureKind} (h : k.exitCode = l.exitCode) : k = l := by
  cases k <;> cases l <;> first | rfl | exact absurd h (by decide)

theorem mem_all (k : FailureKind) : k ∈ all := by cases k <;> decide

end FailureKind

/-- What went wrong. -/
inductive Cause
  /-- A failure in the words of whoever noticed it. -/
  | stated (kind : FailureKind) (message : String)
  /-- A parameter stands in none of the four places that a request has. -/
  | unknownLocation (parameter location : Value)
  /-- The document file cannot be read. -/
  | unreadable (path : String) (problem : FileProblem)
  /-- The document file is not in the format that its name tells. -/
  | unparsable (path : String)
  /-- The file holds no mapping with paths. -/
  | noPaths (path : String)
  /-- An operation has no tag, or several. -/
  | tagCount (operation : String) (count : Nat)
  /-- A parameter reference leads to no shared parameter. -/
  | unknownParameter (reference : Value)
  /-- A query parameter may be sent without a value. -/
  | emptyAllowed (parameter : String)
  /-- A media type prescribes the encoding of its parts. -/
  | encodedMedia (contentType : String)
  /-- A path template does not parse, or names an undeclared parameter. -/
  | malformedTemplate (template reason : Value)
  /-- An operation declares no response. -/
  | noResponses
  /-- No rule gives the response of an operation a type. -/
  | noResponseType (contentType : Scalar)
  /-- An operation has no client call. -/
  | unauthenticated (operation : String)
  /-- A reference leads nowhere, or back to itself. -/
  | danglingReference (reference : Value)
  /-- Two parameters of an operation have one name in the generated code. -/
  | duplicateParameter (identifier first second : Value)
  deriving DecidableEq

namespace Cause

def kind : Cause → FailureKind
  | stated kind _ => kind
  | unknownLocation _ _ => .generation
  | unreadable _ _ | unparsable _ | noPaths _ => .documentLoad
  | tagCount _ _ => .tagCardinality
  | unknownParameter _ => .unknownParameter
  | emptyAllowed _ | encodedMedia _ => .unsupportedQuery
  | malformedTemplate _ _ => .malformedTemplate
  | noResponses | noResponseType _ => .unrepresentableResponse
  | unauthenticated _ => .missingAuthentication
  | danglingReference _ => .danglingReference
  | duplicateParameter _ _ _ => .duplicateParameter

def message : Cause → String
  | stated _ message => message
  | unknownLocation parameter location =>
    "parameter " ++ parameter.literal ++ " has unknown location " ++ location.literal
  | unreadable path problem => "cannot read " ++ path ++ ": " ++ problem.message path
  | unparsable path => "cannot parse " ++ path
  | noPaths path => path ++ " is not an OpenAPI document (no 'paths')"
  | tagCount operation count =>
    "invalid number of tags for op " ++ operation ++ ": " ++ toString count
  | unknownParameter reference => "could not find parameter with reference: " ++ reference.display
  | emptyAllowed parameter =>
    "allowEmptyValue is not supported (query parameter " ++ Text.quoted parameter ++ ")"
  | encodedMedia contentType => "media type encoding not empty for " ++ contentType
  | malformedTemplate template reason =>
    "malformed path template " ++ template.literal ++ ": " ++ reason.display
  | noResponses => "operation declares no responses"
  | noResponseType contentType =>
    "parsing response got to end with no type (content type " ++ contentType.literal ++ ")"
  | unauthenticated operation => "function " ++ operation ++ " should be authenticated"
  | danglingReference reference => "could not resolve schema reference: " ++ reference.display
  | duplicateParameter identifier first second =>
    "parameters " ++ first.literal ++ " and " ++ second.literal ++ " both map to identifier " ++
      identifier.literal

end Cause

/-- The operation for which a failure arose, nothing for one without an id. -/
structure Location where
  operation : Value
  method : Value
  path : Value
  deriving DecidableEq

/-- A cause with the operation for which it arose, once that is known. -/
structure Failure where
  cause : Cause
  location : Option Location := none
  deriving DecidableEq

namespace Failure

/-- The failure located in an operation. The first location stays, and one without a path is none.
-/
def locate (f : Failure) (l : Location) : Failure :=
  match f.location with
  | some _ => f
  | none => if l.path = .null then f else { f with location := some l }

def message (f : Failure) : String :=
  match f.location with
  | none => f.cause.message
  | some l =>
    f.cause.message ++ " (operation " ++ l.operation.literal ++ ": " ++ l.method.display ++ " " ++
      l.path.display ++ ")"

def exitCode (f : Failure) : Nat := f.cause.kind.exitCode

@[simp] theorem cause_locate (f : Failure) (l : Location) : (f.locate l).cause = f.cause := by
  unfold locate; split <;> (try split) <;> rfl

/-- A location that is known stays. -/
theorem locate_of_isSome {f : Failure} (h : f.location.isSome) (l : Location) : f.locate l = f := by
  unfold locate
  cases hf : f.location with
  | none => simp [hf] at h
  | some _ => rfl

end Failure

/-- The calls that the interpreter holds inside one another, unless it is told to hold more. -/
def callLimit : Nat := 1000

/-- What can come instead of an answer. -/
inductive Fault
  /-- A value is of a kind that a step has no use for. -/
  | wrongType
  /-- A text that needs a first character is empty. -/
  | emptyText
  /-- A key or a pointer leads nowhere. -/
  | missingEntry
  /-- A value is of the right kind and yet of no use. -/
  | badValue
  /-- A number is beyond all bounds. -/
  | overflow
  /-- Bytes are no text. -/
  | undecodable
  /-- A file cannot be used. -/
  | file (problem : FileProblem)
  /-- Following the document comes back to where it was, or takes more calls inside one another than
  there is room for. -/
  | endless
  /-- A failure that the user is told of. -/
  | failure (f : Failure)
  deriving DecidableEq

namespace Fault

/-- The fault of a cause that no operation is known for. -/
def of (cause : Cause) : Fault := failure { cause }

/-- A fault located in an operation, if it is a failure. -/
def locate (l : Location) : Fault → Fault
  | failure f => failure (f.locate l)
  | other => other

end Fault

end OpenApiClient

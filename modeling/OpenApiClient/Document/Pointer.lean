import OpenApiClient.Document.Access
import OpenApiClient.Text.Digit

/-! # Pointers into a document

A pointer is written `#/` and the steps from the root, separated by slashes. Within a step `~1`
writes a slash and `~0` a tilde. A step is a key of a mapping, or an index of a sequence in
decimal digits. -/
namespace OpenApiClient

namespace Pointer

def decodeSlashes : List Char → List Char
  | '~' :: '1' :: rest => '/' :: decodeSlashes rest
  | c :: rest => c :: decodeSlashes rest
  | [] => []

def decodeTildes : List Char → List Char
  | '~' :: '0' :: rest => '~' :: decodeTildes rest
  | c :: rest => c :: decodeTildes rest
  | [] => []

/-- A step as it is written, decoded. -/
def decodeStep (cs : List Char) : List Char := decodeTildes (decodeSlashes cs)

def encodeStep (cs : List Char) : List Char :=
  cs.flatMap fun c => if c = '~' then ['~', '0'] else if c = '/' then ['~', '1'] else [c]

/-- The steps of a pointer, none for a text that does not start as a pointer. -/
def steps? (reference : String) : Option (List String) :=
  match reference.toList with
  | '#' :: '/' :: rest =>
    some ((Text.fields (· == '/') rest).map fun f => String.ofList (decodeStep f))
  | _ => none

/-- One step from a node. An index of digit signs that are no decimal digits is a bad value. -/
def step (node : Value) (part : String) : Except Fault Value :=
  match node with
  | .mapping ms =>
    match Members.get? ms part with
    | some v => .ok v
    | none => .error .missingEntry
  | .sequence items =>
    let cs := part.toList
    if cs.isEmpty || !cs.all Text.isDigitSign then .error .missingEntry
    else
      match Text.readDigits? cs with
      | none => .error .badValue
      | some i =>
        match items[i]? with
        | some v => .ok v
        | none => .error .missingEntry
  | _ => .error .missingEntry

end Pointer

def Value.resolve (document : Value) (reference : String) : Except Fault Value :=
  match Pointer.steps? reference with
  | none => .error .missingEntry
  | some steps => steps.foldlM Pointer.step document

end OpenApiClient

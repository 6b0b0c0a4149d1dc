import OpenApiClient.Document.Access
import OpenApiClient.Document.Json
import OpenApiClient.Document.Yaml.Reader
import OpenApiClient.Files.Tree
import OpenApiClient.Log

/-! # Documents in files

A file holds a document in YAML or in JSON, as its name tells. What it holds has to be a mapping
with paths, which are counted for the log. -/
namespace OpenApiClient.Document

/-- A document with the name under which it is reported. -/
structure Source where
  name : String
  document : Value
  /-- The count of paths. -/
  pathCount : Nat

def Source.record (s : Source) : LogRecord where
  level := .debug
  source := .loader
  message := "loaded " ++ s.name ++ " (" ++ toString s.pathCount ++ " paths)"

/-- The characters with every line end as a line feed. -/
def unifyLineEnds : List Char → List Char
  | '\r' :: '\n' :: rest => '\n' :: unifyLineEnds rest
  | '\r' :: rest => '\n' :: unifyLineEnds rest
  | c :: rest => c :: unifyLineEnds rest
  | [] => []

def textOf (content : ByteArray) : Except Fault String :=
  match String.fromUTF8? content with
  | some s => .ok (String.ofList (unifyLineEnds s.toList))
  | none => .error .undecodable

/-- A reader of documents. What it makes of a text may be of more kinds than values are, such as a date:
all that is asked of it here is what it has under the key of the paths, and how many parts that has. -/
structure Reader where
  Datum : Type
  read : String → Except ReadFlaw Datum
  /-- What a mapping has under the key of the paths; nothing for what is no mapping with that key. -/
  paths? : Datum → Option Datum
  /-- The count of the parts of a collection or a text; nothing for what has no parts. -/
  length? : Datum → Option Nat
  document : Datum → Value
  document_of_paths? {d : Datum} : (paths? d).isSome →
    ∃ ms, document d = .mapping ms ∧ Members.has ms "paths"

/-- A reader for which documents are values. -/
def Reader.ofValues (read : String → Except ReadFlaw Value) : Reader where
  Datum := Value
  read := read
  paths?
    | .mapping ms => Members.get? ms "paths"
    | _ => none
  length? v := v.size.toOption
  document := id
  document_of_paths? {v} h := by
    cases v with
    | mapping ms => exact ⟨ms, rfl, h⟩
    | scalar s => cases h
    | sequence items => cases h

/-- What the reading of documents depends on. -/
structure Host where
  /-- The reader of YAML, which is a library of its own. -/
  yaml : Reader := .ofValues Yaml.read
  /-- The collections inside one another that there is room for. -/
  room : Nat := callLimit

def Host.readerOf (host : Host) (path : PathName) : Reader :=
  if path.isYaml then host.yaml else .ofValues (Json.readWithin host.room)

def flawFault (path : PathName) : ReadFlaw → Fault
  | .malformed => .of (.unparsable path.text)
  | .badValue => .badValue
  | .overflow => .overflow
  | .endless => .endless
  | .wrongType => .wrongType
  | .emptyText => .emptyText
  | .missingEntry => .missingEntry

/-- The source of what was read, which has to be a mapping with paths. -/
def Reader.source (reader : Reader) (name : String) (d : reader.Datum) : Except Fault Source :=
  match reader.paths? d with
  | none => .error (.of (.noPaths name))
  | some paths =>
    match reader.length? paths with
    | none => .error .wrongType
    | some pathCount => .ok { name, document := reader.document d, pathCount }

/-- The source that a text holds. -/
def Reader.load (reader : Reader) (path : PathName) (text : String) : Except Fault Source :=
  match reader.read text with
  | .error flaw => .error (flawFault path flaw)
  | .ok d => reader.source path.text d

def sourceOf (name : String) (document : Value) : Except Fault Source :=
  (Reader.ofValues Json.read).source name document

def ofContent (path : PathName) (content : ByteArray) (host : Host := {}) : Except Fault Source := do
  (host.readerOf path).load path (← textOf content)

def readFailure (path : PathName) : Fault → Fault
  | .file problem => .of (.unreadable path.text problem)
  | fault => fault

def load (files : FileTree) (path : PathName) (host : Host := {}) : Except Fault Source := do
  ofContent path (← (files.read path).mapError (readFailure path)) host

end OpenApiClient.Document

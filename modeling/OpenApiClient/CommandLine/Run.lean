import OpenApiClient.CommandLine.Options
import OpenApiClient.Document.Load
import OpenApiClient.Document.Sample
import OpenApiClient.Package.Files

/-! # A run of the program

A run takes its orders from the command line and the environment. It reads the document, makes the
modules and writes them. A failure ends it with the exit code of its kind and an entry in the log.
-/
namespace OpenApiClient.CommandLine

/-- The value of each variable that is set. -/
abbrev Environment := String → Option String

/-- What is to be done. -/
structure Job where
  /-- The file with the document; none for the sample. -/
  document : Option PathName
  /-- The directory that the package is written to; none if it has no name. -/
  outputDirectory : Option PathName
  settings : Settings
  /-- The rank that a log record needs to be shown. -/
  threshold : Nat

namespace Job

/-- The threshold of the log if nothing is said about it. -/
def defaultThreshold : String := "INFO"

def ofOptions (o : Options) (environment : Environment) : Except Fault Job :=
  let level :=
    if o.verbose then "DEBUG" else (environment "CLIENTGEN_LOG_LEVEL").getD defaultThreshold
  match LogLevel.threshold? level with
  | none => .error .badValue
  | some threshold => .ok {
      document := o.document
      outputDirectory := o.outputDirectory
      settings := (Settings.ofEnvironment fun name => (environment name).map .text).override
        { arraySeparator := o.arraySeparator, modelsModule := o.modelsModule }
      threshold }

/-- The modules for a document, and what is logged while it is read and they are made. -/
def modules (job : Job) (source : Except Fault Document.Source) :
    Except Fault (Table Scalar String) × List LogRecord :=
  match source with
  | .error fault => (.error fault, [])
  | .ok source =>
    let (modules, registry) := (Package.files source.document job.settings).run {}
    (modules, source.record :: registry.records)

/-- The modules with the directory that they are written to, which has to have a name. -/
def destined (job : Job) (modules : Except Fault (Table Scalar String)) :
    Except Fault (PathName × Table Scalar String) := do
  let modules ← modules
  match job.outputDirectory with
  | some directory => return (directory, modules)
  | none => throw .wrongType

def shown (job : Job) (log : List LogRecord) : List LogRecord :=
  log.filter fun r => job.threshold ≤ r.level.rank

end Job

/-- How a run ends. -/
inductive Ending
  | exit (code : Nat)
  /-- The command line asks for no run. -/
  | usage (reason : Usage)
  /-- A fault that is no failure ends the program. -/
  | fault (f : Fault)
  deriving DecidableEq

/-- The ending of a run with a result, and what is logged about it. -/
def Ending.of : Except Fault Unit → Ending × List LogRecord
  | .ok () => (.exit 0, [])
  | .error (.failure f) =>
    (.exit f.exitCode, [⟨.error, .program, f.cause.kind.name ++ ": " ++ f.message⟩])
  | .error other => (.fault other, [])

/-- What is left of a run. -/
structure Outcome where
  ending : Ending
  files : FileTree
  /-- The records that were shown. -/
  log : List LogRecord := []

/-- Writes modules to a directory, once they are made. Gives the result, the files afterwards and
what is logged. -/
def writeModules (files : FileTree) :
    Except Fault (PathName × Table Scalar String) → Except Fault Unit × FileTree × List LogRecord
  | .error fault => (.error fault, files, [])
  | .ok (directory, modules) =>
    match (Package.write directory modules).run files with
    | (.ok (), files) => (.ok (), files, [Package.writtenRecord directory modules])
    | (.error fault, files) => (.error fault, files, [])

/-- Does a job with the files there are. The sample is reported under the name `sampleName`. -/
def Job.perform (job : Job) (sampleName : String) (files : FileTree) (host : Document.Host) :
    Outcome :=
  let source := match job.document with
    | none => Document.sourceOf sampleName Document.Sample.document
    | some path => Document.load files path host
  let (modules, made) := job.modules source
  let (result, files, written) := writeModules files (job.destined modules)
  let (ending, last) := Ending.of result
  { ending, files, log := job.shown (made ++ written ++ last) }

def run (sampleName : String) (environment : Environment) (arguments : List String)
    (files : FileTree) (host : Document.Host := {}) : Outcome :=
  match Options.read arguments with
  | .error reason => { ending := .usage reason, files }
  | .ok options =>
    match Job.ofOptions options environment with
    | .error fault => { ending := .fault fault, files }
    | .ok job => job.perform sampleName files host

end OpenApiClient.CommandLine

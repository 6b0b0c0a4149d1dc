import OpenApiClient.CommandLine.Run

/-! # The program

It reads the arguments, the environment and the document, and writes the package and the log. What
is read and what is written is decided elsewhere. -/
namespace OpenApiClient.Program
open CommandLine

def usageText : String :=
  "usage: clientgen [-h] [-o OUTPUT_DIR] [--array-separator ARRAY_SEPARATOR]\n" ++
    "                 [--models-module MODELS_MODULE] [-v] [spec]\n"

def helpText : String :=
  usageText ++
    "\n" ++
    "Generate a typed async Python client from an OpenAPI document.\n" ++
    "\n" ++
    "  spec                  OpenAPI document (JSON or YAML)\n" ++
    "  -h, --help            show this help message and exit\n" ++
    "  -o, --output-dir      directory the client package is written to (default: generated)\n" ++
    "  --array-separator     separator for multi-value query parameters\n" ++
    "  --models-module       name of the generated models module\n" ++
    "  -v, --verbose         log every operation\n"

def variableNames : List String :=
  ["CLIENTGEN_ARRAY_SEPARATOR", "CLIENTGEN_MODELS_MODULE", "CLIENTGEN_LOG_LEVEL"]

def environment : IO Environment := do
  let values ← variableNames.filterMapM fun name => do
    return (← IO.getEnv name).map (name, ·)
  return (values.lookup ·)

def problem? : IO.Error → Option FileProblem
  | .noFileOrDirectory _ code _ | .inappropriateType _ code _ | .invalidArgument _ code _ =>
    FileProblem.ofNumber? code.toNat
  | _ => none

def readDocument (path : PathName) : IO (Except Fault Document.Source) := do
  match ← (IO.FS.readBinFile path.text).toBaseIO with
  | .ok content => return Document.ofContent path content
  | .error e =>
    match problem? e with
    | some problem => return .error (Document.readFailure path (.file problem))
    | none => throw e

def report (job : Job) (log : List LogRecord) : IO Unit := do
  for r in job.shown log do
    IO.eprintln r.line

def write (directory : PathName) (modules : Table Scalar String) : IO Unit := do
  IO.FS.createDirAll directory.text
  for (name, text) in modules do
    let bytes := Text.bytes? text
    IO.FS.writeBinFile (Package.fileOf directory name).text (bytes.getD .empty)
    if bytes.isNone then throw (IO.userError "half of a character cannot be written")

/-- Does a job. Gives the exit code. -/
def perform (job : Job) : IO UInt32 := do
  let source ← match job.document with
    | none => pure (Document.sourceOf "the sample document" Document.Sample.document)
    | some path => readDocument path
  let (modules, made) := job.modules source
  report job made
  let result ← match job.destined modules with
    | .error fault => pure (.error fault)
    | .ok (directory, modules) => do
      write directory modules
      report job [Package.writtenRecord directory modules]
      pure (.ok ())
  let (ending, last) := Ending.of result
  report job last
  match ending with
  | .exit code => return UInt32.ofNat code
  | .usage reason => return UInt32.ofNat reason.exitCode
  | .fault _ => throw (IO.userError "the document is not of the expected form")

def run (arguments : List String) : IO UInt32 := do
  match Options.read arguments with
  | .error .help =>
    IO.print helpText
    return UInt32.ofNat Usage.help.exitCode
  | .error .mistake =>
    IO.eprint usageText
    return UInt32.ofNat Usage.mistake.exitCode
  | .ok options =>
    match Job.ofOptions options (← environment) with
    | .ok job => perform job
    | .error _ => throw (IO.userError "unknown log level")

end OpenApiClient.Program

def main (arguments : List String) : IO UInt32 := OpenApiClient.Program.run arguments

import OpenApiClient.CommandLine.Argument
import OpenApiClient.Document.Value
import OpenApiClient.Files.PathName

/-! # Options of a command line

The options are taken from left to right, so the first request for help or the first mistake
decides. Arguments that are left over are a mistake once all have been seen. -/
namespace OpenApiClient.CommandLine

/-- What a command line asks for. -/
structure Options where
  /-- The file with the document, if one is named. -/
  document : Option PathName := none
  /-- The directory that the package is written to; none if it has no name. -/
  outputDirectory : Option PathName := some (.ofString "generated")
  arraySeparator : Option Value := none
  modelsModule : Option Value := none
  /-- Whether everything is logged. -/
  verbose : Bool := false
  deriving DecidableEq

namespace Options

/-- The text that an option is given. The mark of the end of the options is never a part of a
value, so nothing is left of a value that is this mark. -/
def given? (value : String) : Option String := if value = "--" then none else some value

/-- The value of a setting that an option is given, a sequence without items for no text. -/
def settingOf (value : String) : Value := (given? value).elim (.sequence []) .text

def withFlag (o : Options) (flag : Flag) (value : String) : Except Usage Options :=
  match flag with
  | .help => .error .help
  | .outputDirectory => .ok { o with outputDirectory := (given? value).map .ofString }
  | .arraySeparator => .ok { o with arraySeparator := some (settingOf value) }
  | .modelsModule => .ok { o with modelsModule := some (settingOf value) }
  | .verbose => .ok { o with verbose := true }

def withFlags (o : Options) (flags : List (Flag × String)) : Except Usage Options :=
  flags.foldlM (fun o f => o.withFlag f.1 f.2) o

end Options

/-- The options of one argument. -/
structure Cluster where
  /-- The options that are complete. -/
  complete : List (Flag × String) := []
  /-- The option whose value is the next argument. -/
  open? : Option Flag := none

namespace Cluster

def single (flag : Flag) : Cluster :=
  if flag.takesValue then { open? := some flag } else { complete := [(flag, "")] }

def withValue (flag : Flag) (value : List Char) : Cluster :=
  { complete := [(flag, String.ofList value)] }

/-- The cluster of a long option. Nothing may stand behind one without a value. -/
def long (flag : Flag) : Option (List Char) → Except Usage Cluster
  | none => .ok (single flag)
  | some text => if flag.takesValue then .ok (withValue flag text) else .error .mistake

/-- The cluster with an option without a value before it. -/
def after (flag : Flag) (c : Cluster) : Cluster := { c with complete := (flag, "") :: c.complete }

/-- The cluster of a letter with a text behind it: the value of its option, or further letters. -/
def ofLetters (flag : Flag) : List Char → Except Usage Cluster
  | [] => if flag.takesValue then .ok (withValue flag []) else .error .mistake
  | c :: rest =>
    if flag.takesValue then .ok (withValue flag (c :: rest))
    else
      match Flag.ofLetter? c, rest with
      | none, _ => .error .mistake
      | some next, [] => .ok (after flag (single next))
      | some next, d :: more => (ofLetters next (d :: more)).map (after flag)

def short (flag : Flag) : Option (List Char) → Except Usage Cluster
  | none => .ok (single flag)
  | some text => ofLetters flag text

end Cluster

/-- What was taken from the arguments so far. -/
structure Progress where
  options : Options := {}
  /-- Whether a document is named already. -/
  hasDocument : Bool := false
  /-- Whether an argument was of no use. -/
  leftOver : Bool := false

namespace Progress

/-- An operand: the document, or of no use. -/
def operand (p : Progress) (s : String) : Progress :=
  if p.hasDocument then { p with leftOver := true }
  else { p with options := { p.options with document := some (.ofString s) }, hasDocument := true }

/-- The options of a cluster with the arguments after it. Gives the arguments that are left. -/
def cluster (p : Progress) (c : Cluster) (rest : List Argument) :
    Except Usage (Progress × List Argument) := do
  match c.open?, rest with
  | none, _ =>
    let options ← p.options.withFlags c.complete
    return ({ p with options }, rest)
  | some flag, .operand s :: rest =>
    let options ← p.options.withFlags (c.complete ++ [(flag, s)])
    return ({ p with options }, rest)
  | some _, _ => throw .mistake

/-- One argument with those after it. Gives the arguments that are left. The end of the options
goes with the document, on either side of it. -/
def step (p : Progress) (a : Argument) (rest : List Argument) :
    Except Usage (Progress × List Argument) := do
  match a with
  | .long flag attached => p.cluster (← Cluster.long flag attached) rest
  | .short flag attached => p.cluster (← Cluster.short flag attached) rest
  | .unknown => return ({ p with leftOver := true }, rest)
  | .operand s =>
    match p.hasDocument, rest with
    | false, .endOfOptions :: rest => return (p.operand s, rest)
    | _, _ => return (p.operand s, rest)
  | .endOfOptions =>
    match p.hasDocument, rest with
    | true, _ => return ({ p with leftOver := true }, rest)
    | false, .operand s :: rest => return (p.operand s, rest)
    | false, _ => return (p, rest)

def steps : (fuel : Nat) → Progress → List Argument → Except Usage Progress
  | 0, p, _ => .ok p
  | _, p, [] => .ok p
  | fuel + 1, p, a :: rest => do
    let (p, rest) ← p.step a rest
    steps fuel p rest

end Progress

def Options.read (arguments : List String) : Except Usage Options := do
  let arguments ← Argument.readAll arguments
  let p ← ({} : Progress).steps arguments.length arguments
  if p.leftOver then throw .mistake else return p.options

end OpenApiClient.CommandLine

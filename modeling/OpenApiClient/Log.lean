/-! # Log records -/
namespace OpenApiClient

/-- How important a record is. -/
inductive LogLevel
  | debug
  | info
  | warning
  | error
  | critical
  deriving DecidableEq

namespace LogLevel

/-- The rank of a level; a record is shown when its rank reaches the threshold. -/
def rank : LogLevel → Nat
  | debug => 10
  | info => 20
  | warning => 30
  | error => 40
  | critical => 50

def name : LogLevel → String
  | debug => "DEBUG"
  | info => "INFO"
  | warning => "WARNING"
  | error => "ERROR"
  | critical => "CRITICAL"

def thresholds : List (String × Nat) :=
  [("CRITICAL", 50), ("FATAL", 50), ("ERROR", 40), ("WARNING", 30), ("WARN", 30), ("INFO", 20),
    ("DEBUG", 10), ("NOTSET", 0)]

/-- The capital of a letter in the name of a threshold: a Latin one, or that of the dotless i or the
long s, which are Latin capitals too. -/
def capital (c : Char) : Char := if c = 'ı' then 'I' else if c = 'ſ' then 'S' else c.toUpper

def threshold? (s : String) : Option Nat :=
  thresholds.lookup (String.ofList (s.toList.map capital))

end LogLevel

/-- The part of the program that a record comes from. -/
inductive LogSource
  | program
  | loader
  | parameters
  | operations
  | package
  | types
  deriving DecidableEq

def LogSource.name : LogSource → String
  | program => "clientgen"
  | loader => "clientgen.loader"
  | parameters => "clientgen.parameters"
  | operations => "clientgen.context_builder"
  | package => "clientgen.codegen"
  | types => "clientgen.typespace"

/-- One record of the log. -/
structure LogRecord where
  level : LogLevel
  source : LogSource
  message : String
  deriving DecidableEq

namespace LogRecord

def line (r : LogRecord) : String := r.level.name ++ " " ++ r.source.name ++ " " ++ r.message

/-- Whether the record is a warning or worse. -/
def isWarning (r : LogRecord) : Bool := LogLevel.warning.rank ≤ r.level.rank

end LogRecord

def warnings (log : List LogRecord) : List String :=
  (log.filter LogRecord.isWarning).map LogRecord.message

end OpenApiClient

/-!
# Log records

What a run reports besides its result. Records are data; the command line decides which of them
are shown.
-/

namespace FieldGraft

/-- How serious a record is. -/
inductive LogLevel where
  | error
  | warn
  | info
  | debug
deriving DecidableEq, Repr, Inhabited

namespace LogLevel

/-- The name in capitals. -/
def name : LogLevel → String
  | error => "ERROR"
  | warn => "WARN"
  | info => "INFO"
  | debug => "DEBUG"

/-- A larger rank is less serious. -/
def rank : LogLevel → Nat
  | error => 1
  | warn => 2
  | info => 3
  | debug => 4

end LogLevel

/-- The part of the program that a record comes from. -/
inductive LogTopic where
  | coordinator
  | validator
  | diagnostics
  | config
  | environment
deriving DecidableEq, Repr, Inhabited

/-- The name by which log filters select the part. -/
def LogTopic.name : LogTopic → String
  | coordinator => "fielder::coordinator"
  | validator => "fielder::validator"
  | diagnostics => "fielder::diagnostics"
  | config => "fielder::config"
  | environment => "fielder::environment"

/-- One record. -/
structure LogRecord where
  level : LogLevel
  topic : LogTopic
  text : String
deriving DecidableEq, Repr, Inhabited

end FieldGraft

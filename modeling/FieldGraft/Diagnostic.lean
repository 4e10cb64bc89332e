import FieldGraft.Arena
import FieldGraft.Log

/-!
# Diagnostics

What a round tells about each request: a severity, a message and the node it concerns. Every
reported diagnostic is also logged.
-/

namespace FieldGraft

/-- How serious a diagnostic is. -/
inductive Severity where
  | note
  | warning
  | error
deriving DecidableEq, Repr, Inhabited

namespace Severity

/-- The name in messages. -/
def name : Severity → String
  | note => "note"
  | warning => "warning"
  | error => "error"

/-- A larger rank is more serious. -/
def rank : Severity → Nat
  | note => 0
  | warning => 1
  | error => 2

/-- The level at which a diagnostic is logged. -/
def logLevel : Severity → LogLevel
  | note => .info
  | warning => .warn
  | error => .error

end Severity

/-- A message about a node, or about a round as a whole. -/
structure Diagnostic where
  severity : Severity
  message : String
  node : Option NodeId := none
deriving DecidableEq, Repr, Inhabited

namespace Diagnostic

/-- A diagnostic as the program reports it. -/
def report (severity : Severity) (node : Option NodeId) (text : String) : Diagnostic where
  severity
  message := "fielder: " ++ text
  node

/-- The diagnostic in one text. -/
def display (d : Diagnostic) : String :=
  s!"{d.severity.name}: {d.message}"

/-- The log record of a reported diagnostic. -/
def logRecord (d : Diagnostic) : LogRecord where
  level := d.severity.logLevel
  topic := .diagnostics
  text := d.message

/-- How many diagnostics of a severity a list holds. -/
def count (severity : Severity) (ds : List Diagnostic) : Nat :=
  (ds.filter (fun d => d.severity == severity)).length

/-- Whether a list holds an error. -/
def hasErrors (ds : List Diagnostic) : Bool :=
  0 < count .error ds

/-- The most serious severity of a list. -/
def worst? : List Diagnostic → Option Severity
  | [] => none
  | d :: ds =>
    match worst? ds with
    | some s => some (if s.rank < d.severity.rank then d.severity else s)
    | none => some d.severity

end Diagnostic

/-- A diagnostic with the label and place of its node. -/
structure LocatedDiagnostic where
  diagnostic : Diagnostic
  subject : Option String
  location : Option Location
deriving DecidableEq, Repr, Inhabited

/-- Looks up the node of a diagnostic. -/
def Diagnostic.locate (a : Arena) (d : Diagnostic) : LocatedDiagnostic where
  diagnostic := d
  subject := d.node.map a.label
  location := d.node.bind a.location?

end FieldGraft

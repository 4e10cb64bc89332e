import FieldGraft.CommandLine.Messages
import FieldGraft.CommandLine.Project
import FieldGraft.JsonDoc
import FieldGraft.Table

/-!
# What a run reports

The outcomes of a run as a table of its diagnostics, as lines, or as a document for other programs,
and the verdict on the run.
-/

namespace FieldGraft

/-- The outcomes of a run, one for each source. -/
structure RunSummary where
  files : List FileOutcome
deriving DecidableEq, Repr, Inhabited

namespace RunSummary

/-- The diagnostics, each with the path of its source. -/
def rows (s : RunSummary) : List (FilePath × LocatedDiagnostic) :=
  s.files.flatMap (fun f => f.diagnostics.map (fun d => (f.shown, d)))

/-- How many diagnostics have a severity. -/
def count (s : RunSummary) (severity : Severity) : Nat :=
  Diagnostic.count severity (s.rows.map (fun r => r.2.diagnostic))

/-- How many fields were added. -/
def injected (s : RunSummary) : Nat :=
  s.files.foldr (fun f n => f.injected.length + n) 0

/-- Whether the run counts as a failure. -/
def failed (s : RunSummary) (denyWarnings : Bool) : Bool :=
  0 < s.count .error || (denyWarnings && 0 < s.count .warning)

/-! ### Forms -/

/-- Where a diagnostic belongs. -/
def position (path : FilePath) (d : LocatedDiagnostic) : String :=
  match d.location with
  | some l => s!"{path.text}:{l.line}:{l.column}"
  | none => path.text

/-- The diagnostics as a table. -/
def table (s : RunSummary) : Table where
  header := ["Location", "Subject", "Level", "Message"]
  rows := s.rows.map fun (path, d) =>
    [position path d, d.subject.getD "-", d.diagnostic.severity.name, d.diagnostic.message]

/-- The diagnostics and the totals, one line each. -/
def compact (s : RunSummary) : String :=
  "\n".intercalate
    (s.rows.map (fun (path, d) => position path d ++ ": " ++ d.diagnostic.display) ++
      [s!"{s.files.length} files, {s.injected} injected, {s.count .error} errors, {s.count .warning} warnings"])

/-- A value that may be missing. -/
def optional {α : Type} (f : α → JsonDoc) : Option α → JsonDoc
  | some a => f a
  | none => .null

/-- A diagnostic as a document. -/
def diagnosticDoc (d : LocatedDiagnostic) : JsonDoc :=
  .object [
    ("severity", .string d.diagnostic.severity.name),
    ("message", .string d.diagnostic.message),
    ("node", optional (fun n => .number n.index) d.diagnostic.node),
    ("subject", optional .string d.subject),
    ("location",
      optional (fun l => .object [("line", .number l.line), ("column", .number l.column)])
        d.location)]

/-- An outcome as a document. -/
def fileDoc (f : FileOutcome) : JsonDoc :=
  .object [
    ("path", .string f.shown.text),
    ("injected", .array (f.injected.map (fun i =>
      .object [("type", .string i.type), ("field", .string i.field), ("ty", .string i.ty)]))),
    ("diagnostics", .array (f.diagnostics.map diagnosticDoc))]

/-- The run as a document. -/
def document (s : RunSummary) : JsonDoc :=
  .object [
    ("files", .array (s.files.map fileDoc)),
    ("errors", .number (s.count .error)),
    ("warnings", .number (s.count .warning))]

/-- The run in the form that is asked for. -/
def lines (s : RunSummary) (v : Voice) : List Line :=
  if v.quiet then []
  else match v.format with
    | .json => [.output (s.document.render 0)]
    | .table => [.output (s.table.render (if v.plain then .plain else .boxed))]
    | .compact => [.output s.compact]

/-! ### Verdict -/

/-- The totals in words. -/
def totals (s : RunSummary) : String :=
  s!"{s.files.length} file(s), {s.injected} field(s) injected, {s.count .error} error(s), {s.count .warning} warning(s)"

/-- The last lines of a run, and whether it failed. -/
def conclude (s : RunSummary) (v : Voice) (denyWarnings : Bool) :
    List Line × Except CommandError Unit :=
  if s.failed denyWarnings then
    (v.error s.totals,
      .error (if s.count .error = 0 then .denied else .reported (s.count .error)))
  else if 0 < s.count .warning then (v.warning s.totals, .ok ())
  else (v.success s.totals, .ok ())

end RunSummary

end FieldGraft

import FieldGraft.Emission
import FieldGraft.Source.Grammar

/-!
# Sessions

A session runs rounds on behalf of one host. The host is probed in the first round, and all later
rounds have the outcome of that probe. Annotations are removed whether or not the host grants
access; if it does not, the only diagnostic of a round says so.
-/

namespace FieldGraft

/-- What is set for all rounds, and what the first one found out. -/
structure Session where
  host : Host
  providers : List Provider := Provider.standard
  placement : Placement := .prepend
  /-- How many questions the host has answered. -/
  asked : Nat := 0
  /-- The outcome of the probe, once it has run. -/
  access : Option (Except HostError Capability) := none

/-- Everything a round produced besides the items. -/
structure RoundReport where
  arena : Arena
  summary : Summary
  diagnostics : List Diagnostic
  /-- How many annotations were removed. -/
  annotations : Nat
  /-- How many nodes come from the source; the others were synthesized. -/
  declared : Nat
  log : List LogRecord
deriving Inhabited

namespace RoundReport

/-- Whether annotations were removed. An annotated source only compiles in its new form. -/
def annotated (r : RoundReport) : Bool :=
  0 < r.annotations

/-- The diagnostics with their places. -/
def located (r : RoundReport) : List LocatedDiagnostic :=
  r.diagnostics.map (Diagnostic.locate r.arena)

/-- How many diagnostics have a severity. -/
def count (r : RoundReport) (severity : Severity) : Nat :=
  Diagnostic.count severity r.diagnostics

/-- Whether there are errors. -/
def hasErrors (r : RoundReport) : Bool :=
  Diagnostic.hasErrors r.diagnostics

/-- Whether a node comes from the source. -/
def isDeclared (r : RoundReport) (id : NodeId) : Bool :=
  id.index < r.declared

/-- The field names of the first type with a name. -/
def fieldNames (r : RoundReport) (name : String) : List String :=
  match r.arena.types.find? (fun t => t.2.name == name) with
  | some (id, _) => (r.arena.fields id).map (fun f => f.2.name)
  | none => []

end RoundReport

/-- How many requests a batch holds. -/
def requestCount (batch : List Target) : Nat :=
  batch.foldr (fun t n => t.requests.length + n) 0

/-- Reports refused annotations before a round. -/
def annotationDiagnostics (errors : List (NodeId × AnnotationError)) : List Diagnostic :=
  errors.map (fun e => .report .error (some e.1) e.2.message)

/-- A round over the declarations of a unit under a given access. -/
def Catalogue.round (c : Catalogue) (placement : Placement)
    (access : Except HostError Capability) : Progress :=
  match access with
  | .ok capability =>
    let refused := annotationDiagnostics c.errors
    let p := c.arena.processInto refused capability placement c.types c.batch
    { p with log := refused.map Diagnostic.logRecord ++ p.log }
  | .error e =>
    let start : Progress := { arena := c.arena, summary := { skipped := requestCount c.batch } }
    start.report (.report .error none e.message)

namespace Session

/-- The access that the session has; the first call probes the host. -/
def authorize (s : Session) : Session × Except HostError Capability × List LogRecord :=
  match s.access with
  | some access => (s, access, [])
  | none =>
    let p := s.host.probe s.providers s.asked
    ({ s with asked := p.asked, access := some p.outcome }, p.outcome, p.log)

/-- One round over a list of items. -/
def injectItems (s : Session) (items : List Item) : Session × List Item × RoundReport :=
  let c := Catalogue.ofItems items
  let (s', access, probeLog) := s.authorize
  let p := c.round s.placement access
  let (items', annotations) := c.emit p.arena p.summary items
  (s', items',
    { arena := p.arena, summary := p.summary, diagnostics := p.diagnostics, annotations
      declared := c.arena.size, log := probeLog ++ p.log })

/-- One round over the items of a file. -/
def injectFile (s : Session) (f : File) : Session × File × RoundReport :=
  let (s', items, report) := s.injectItems f.items
  (s', { f with items }, report)

/-- One round over a source text. A text that cannot be read changes nothing. -/
def injectText (s : Session) (text : String) :
    Except SourceError (Session × File × RoundReport) :=
  match File.ofText text with
  | .ok f => .ok (s.injectFile f)
  | .error e => .error e

end Session

end FieldGraft

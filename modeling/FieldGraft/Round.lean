import FieldGraft.Host
import FieldGraft.Placement
import FieldGraft.Request
import FieldGraft.Verdict

/-!
# A round of injection

A round goes through the requests of a batch of targets. Each request is judged against the arena as
the requests before it left it; a failure is reported and stops nothing else.
-/

namespace FieldGraft

/-- A field that a round has added. -/
structure Injection where
  target : NodeId
  field : NodeId
deriving DecidableEq, Repr, Inhabited

/-- What a round did. -/
structure Summary where
  injected : List Injection := []
  skipped : Nat := 0
deriving DecidableEq, Repr, Inhabited

/-- The fields added to a type, in the order of their addition. -/
def Summary.injectedInto (s : Summary) (target : NodeId) : List NodeId :=
  (s.injected.filter (fun i => i.target == target)).map Injection.field

/-- How far a round has come. -/
structure Progress where
  arena : Arena
  summary : Summary := {}
  diagnostics : List Diagnostic := []
  log : List LogRecord := []
deriving Inhabited

namespace Progress

/-- Logs a record. -/
def note (p : Progress) (r : LogRecord) : Progress :=
  { p with log := p.log ++ [r] }

/-- Reports a diagnostic. -/
def report (p : Progress) (d : Diagnostic) : Progress :=
  { p with diagnostics := p.diagnostics ++ [d], log := p.log ++ [d.logRecord] }

/-- Reports a diagnostic about a request that is not carried out. -/
def skip (p : Progress) (d : Diagnostic) : Progress :=
  let p := p.report d
  { p with summary := { p.summary with skipped := p.summary.skipped + 1 } }

/-- Reports the refusal of a request, if it is one. -/
def refuse (p : Progress) (field : String) (v : Verdict) : Progress :=
  let p := p.note ⟨.debug, .coordinator, s!"skipping `{field}`: {v.logText}"⟩
  match v.diagnostic? p.arena with
  | some d => p.skip d
  | none => p

/-- Carries out an addition at the given position of the target's members. -/
def commit (p : Progress) (target : NodeId) (position : Nat) (field : FieldDecl) :
    Except ArenaError Progress := do
  let (arena, id) ← p.arena.insertMember target position (.field field)
  let added : Progress :=
    { p with
      arena
      summary := { p.summary with injected := p.summary.injected ++ [⟨target, id⟩] } }
  return added.report
    (.report .note (some target) s!"adding field `{field.name}` to `{arena.typeName target}`")

/-- One request of a target that has received `count` fields so far in this round. -/
def request (types : TypeResolver) (placement : Placement) (target : NodeId)
    (p : Progress) (count : Nat) (r : Request) : Progress × Nat :=
  match p.arena.evaluate target r.name with
  | .eligible =>
    let p := p.note (p.arena.eligibleRecord target r.name)
    match r.synthesize types with
    | .error e => (p.skip (.report .error (some target) e.message), count)
    | .ok field =>
      match p.commit target (placement.position count) field with
      | .ok p' => (p', count + 1)
      | .error e => (p.skip (.report .error (some target) e.message), count)
  | v => (p.refuse r.name v, count)

/-- The requests of one target, the first of which finds `count` fields added. -/
def requests (types : TypeResolver) (placement : Placement) (target : NodeId) :
    Progress → Nat → List Request → Progress
  | p, _, [] => p
  | p, count, r :: rs =>
    let (p', count') := request types placement target p count r
    requests types placement target p' count' rs

/-- All requests of one target. -/
def target (types : TypeResolver) (placement : Placement) (p : Progress) (t : Target) : Progress :=
  requests types placement t.node p 0 t.requests

end Progress

/-- The first record of a round. -/
def roundRecord (capability : Capability) (placement : Placement) (batch : List Target) :
    LogRecord :=
  ⟨.debug, .coordinator,
    s!"round over {batch.length} target(s) on `{capability.host}` via {capability.via} " ++
      s!"({placement.name})"⟩

/-- Runs a round over a batch. What it reports goes behind the diagnostics that `sink` holds. -/
def Arena.processInto (a : Arena) (sink : List Diagnostic) (capability : Capability)
    (placement : Placement) (types : TypeResolver) (batch : List Target) : Progress :=
  batch.foldl (Progress.target types placement)
    { arena := a, diagnostics := sink, log := [roundRecord capability placement batch] }

/-- Runs a round over a batch; nothing was reported before. -/
def Arena.process (a : Arena) (capability : Capability) (placement : Placement)
    (types : TypeResolver) (batch : List Target) : Progress :=
  a.processInto [] capability placement types batch

/-- A type table that knows the types of an arena. -/
def TypeTable.ofArena (a : Arena) : TypeTable :=
  TypeTable.standard.declareAll (a.types.map (fun t => t.2.name))

end FieldGraft

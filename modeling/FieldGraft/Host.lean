import FieldGraft.Log

/-!
# Hosts and the capability to change a syntax tree

Injection needs a host that exposes its syntax tree. A host may be wrapped in layers that hide it.
A chain of providers is tried in order, and the first grant wins.

A host may change its answer from one question to the next, so asking is counted: `Host.exposes`
takes the number of questions asked before and returns the number asked after. A host whose answer
is always the same cannot tell and does not count.
-/

namespace FieldGraft

/-- The hosts that own a syntax tree. -/
inductive SourceHost where
  | attributeHost
  | buildScript
  | commandLine
deriving DecidableEq, Repr, Inhabited

/-- The name of a host. -/
def SourceHost.name : SourceHost → String
  | attributeHost => "proc-macro"
  | buildScript => "build-script"
  | commandLine => "cli"

/-- What drives a round. -/
inductive Host where
  | source (host : SourceHost)
  /-- A host without any access to its tree. -/
  | closed (name : String)
  /-- A layer that hides the host inside it. -/
  | wrapped (label : String) (inner : Host)
  /-- Any other host: `answers n` is its answer to the question that `n` others precede, and it may
  have a host inside. -/
  | custom (name : String) (answers : Nat → Bool) (inner : Option Host)
deriving Inhabited

namespace Host

/-- The name of the outermost layer. -/
def name : Host → String
  | source h => h.name
  | closed n => n
  | wrapped label _ => label
  | custom n _ _ => n

/-- The host inside the outermost layer. -/
def inner? : Host → Option Host
  | wrapped _ h => some h
  | custom _ _ h => h
  | _ => none

/-- The answer to the question that `asked` others precede. -/
def answer (answers : List Bool) (asked : Nat) : Bool :=
  match answers[asked]? with
  | some b => b
  | none => answers.getLastD false

/-- A host without layers that answers questions one after the other from a list, and then repeats
the last answer. -/
def scripted (name : String) (answers : List Bool) : Host :=
  custom name (answer answers) none

/-- Asks the outermost layer whether it exposes its tree. -/
def exposes (h : Host) (asked : Nat) : Bool × Nat :=
  match h with
  | source _ => (true, asked)
  | closed _ => (false, asked)
  | wrapped _ _ => (false, asked)
  | custom _ answers _ => (answers asked, asked + 1)

end Host

/-- The permission to change the tree of a layer. -/
structure Capability where
  /-- The layer that granted it. -/
  host : String
  /-- The provider that acquired it. -/
  via : String
deriving DecidableEq, Repr, Inhabited

/-- What trying a provider gives: a grant, the number of questions asked so far, and a log. -/
structure Attempt where
  grant : Option Capability
  asked : Nat
  log : List LogRecord := []
deriving DecidableEq, Repr, Inhabited

/-- A way to get at the tree. -/
inductive Provider where
  /-- Accepts a host that exposes its tree itself. -/
  | direct
  /-- Looks through up to `depth` layers. -/
  | unwrapping (depth : Nat)
  /-- Any other way: `attempt h n` is what comes of it on `h` after `n` questions. -/
  | custom (name : String) (attempt : Host → Nat → Attempt)
deriving Inhabited

/-- The name of a provider. -/
def Provider.name : Provider → String
  | direct => "direct"
  | unwrapping _ => "unwrapping"
  | custom n _ => n

namespace Provider

/-- Looks through the layers from `current` on, inside the layer named `outer`. -/
def unwrap (outer : String) : Nat → Option Host → Nat → Attempt
  | 0, _, asked => { grant := none, asked }
  | _ + 1, none, asked => { grant := none, asked }
  | depth + 1, some layer, asked =>
    let (yes, asked') := layer.exposes asked
    if yes then
      { grant := some ⟨layer.name, "unwrapping"⟩
        asked := asked'
        log := [⟨.debug, .environment, s!"unwrapped `{outer}` to reach `{layer.name}`"⟩] }
    else unwrap outer depth layer.inner? asked'

/-- Tries a provider on a host. -/
def acquire (p : Provider) (h : Host) (asked : Nat) : Attempt :=
  match p with
  | direct =>
    let (yes, asked') := h.exposes asked
    { grant := if yes then some ⟨h.name, "direct"⟩ else none, asked := asked' }
  | unwrapping depth => unwrap h.name depth h.inner? asked
  | custom _ attempt => attempt h asked

/-- Direct access first, then through four layers. -/
def standard : List Provider :=
  [direct, unwrapping 4]

end Provider

/-- No provider was granted access. -/
structure HostError where
  host : String
deriving DecidableEq, Repr, Inhabited

/-- The text shown to the user. -/
def HostError.message (e : HostError) : String :=
  s!"fielder requires a host that exposes its syntax tree; `{e.host}` is not supported"

/-- The outcome of a probe, the number of questions asked so far, and a log. -/
structure Probe where
  outcome : Except HostError Capability
  asked : Nat
  log : List LogRecord := []

/-- Tries the providers in order. -/
def Host.probe (h : Host) : List Provider → Nat → Probe
  | [], asked => { outcome := .error ⟨h.name⟩, asked }
  | p :: ps, asked =>
    let a := p.acquire h asked
    match a.grant with
    | some c => { outcome := .ok c, asked := a.asked, log := a.log }
    | none =>
      let rest := h.probe ps a.asked
      { rest with log := a.log ++ rest.log }

end FieldGraft

import FieldGraft.Config
import FieldGraft.FileSystem.Walk
import FieldGraft.Layout
import FieldGraft.Session

/-!
# Projects

A project is a configuration with the directory that it is about. Its sources are the files below
the given paths, or else below those of the configuration, that are neither hidden nor excluded. A
run takes all of them through one session and writes nothing.

* `Project.collect` lists the sources, each once, in the order of their paths.
* `Project.run` gives one outcome for each source.
-/

namespace FieldGraft

/-- Why a command fails. -/
inductive CommandError where
  /-- The configuration that was asked for. -/
  | badConfig (path : FilePath) (cause : ConfigError)
  /-- The configuration that was found. -/
  | foundConfig (cause : ConfigError)
  | missingPath (path : FilePath)
  | unreadable (path : FilePath) (cause : FileError)
  | unparsable (path : FilePath) (cause : SourceError)
  | noDirectory (path : FilePath) (cause : FileError)
  | unwritable (path : FilePath) (cause : FileError)
  | denied
  | reported (errors : Nat)
deriving DecidableEq, Repr, Inhabited

namespace CommandError

/-- The texts shown to the user, from the outermost cause to the innermost. -/
def chain : CommandError → List String
  | badConfig p e => s!"Failed to load {p.text}" :: e.chain
  | foundConfig e => e.chain
  | missingPath p => [s!"Path does not exist: {p.text}"]
  | unreadable p e => [s!"Failed to read file: {p.text}", e.message]
  | unparsable p e => [s!"failed to parse {p.text}: {e.message}", e.message]
  | noDirectory p e => [s!"Failed to create directory: {p.text}", e.message]
  | unwritable p e => [s!"Failed to write file: {p.text}", e.message]
  | denied => ["warnings are denied by configuration"]
  | reported n => [s!"injection reported {n} error(s)"]

/-- The error in one line. -/
def line (e : CommandError) : String :=
  "Error: " ++ ": ".intercalate e.chain

end CommandError

/-- A configuration and the directory that its paths start from. -/
structure Project where
  root : FilePath
  config : Config := {}
  configPath : Option FilePath := none
deriving DecidableEq, Repr, Inhabited

/-- A field that was added. -/
structure InjectedField where
  type : String
  field : String
  ty : String
deriving DecidableEq, Repr, Inhabited

/-- What a round did to one source. -/
structure FileOutcome where
  source : FilePath
  /-- The path from the root of the project on, if the source lies there. -/
  shown : FilePath
  injected : List InjectedField
  diagnostics : List LocatedDiagnostic
  /-- The new text of a source with annotations. -/
  rendered : Option String
deriving DecidableEq, Repr, Inhabited

namespace Project

/-- The path of the working directory. -/
def workingPath (fs : FileSystem) : FilePath :=
  ⟨"/" ++ "/".intercalate fs.workingDirectory⟩

/-- The project of a configuration file: its paths start from the directory of the file. -/
def ofConfig (fs : FileSystem) (path : FilePath) (config : Config) : Project where
  root := path.parent?.getD (workingPath fs)
  config
  configPath := some path

/-- The project that a command is about: that of the configuration asked for or found, or the
working directory. -/
def find (fs : FileSystem) (asked : Option FilePath) :
    Except CommandError Project × List LogRecord :=
  match asked with
  | some path =>
    match Config.load fs path with
    | .ok c => (.ok (ofConfig fs path c), [])
    | .error e => (.error (.badConfig path e), [])
  | none =>
    match Config.discover fs (workingPath fs) with
    | .ok (some (path, c)) => (.ok (ofConfig fs path c), [Config.loadedRecord path])
    | .ok none => (.ok { root := workingPath fs }, [])
    | .error e => (.error (.foundConfig e), [])

/-- Whether a component of a path starts with a dot. -/
def isHidden (p : FilePath) : Bool :=
  p.components.any (fun c => c.text.toList.head? == some '.')

/-- Whether a path below a root is taken: it has the extension of sources, and no component below
the root is hidden or excluded. -/
def takes (p : Project) (root path : FilePath) : Bool :=
  let relative := (path.stripPrefix? root).getD path
  path.isSource && !isHidden relative && !p.config.isExcluded relative

/-- The sources below a path. -/
def below (p : Project) (fs : FileSystem) (root : FilePath) : List FilePath :=
  ((fs.walk .followed root).map Visit.path).filter (p.takes root)

/-- The paths to look below: those given, or those of the configuration. -/
def roots (p : Project) (given : List FilePath) : List FilePath :=
  if given.isEmpty then p.config.scan.map p.root.join else given

/-- The sources below a list of paths, all of which must be there. -/
def belowAll (p : Project) (fs : FileSystem) : List FilePath → Except CommandError (List FilePath)
  | [] => .ok []
  | root :: rest =>
    if fs.exists? root then
      match belowAll p fs rest with
      | .ok found => .ok (p.below fs root ++ found)
      | .error e => .error e
    else .error (.missingPath root)

/-- Leaves out a path that denotes the same as the one before it. -/
def dropRepeated : List FilePath → List FilePath
  | [] => []
  | p :: rest =>
    match dropRepeated rest with
    | [] => [p]
    | q :: more => if p.same q then p :: more else p :: q :: more

/-- The sources of a project in order. -/
def collect (p : Project) (fs : FileSystem) (given : List FilePath) :
    Except CommandError (List FilePath) :=
  match p.belowAll fs (p.roots given) with
  | .ok found => .ok (dropRepeated (found.mergeSort FilePath.notAfter))
  | .error e => .error e

/-- The fields that a round added, with their types. -/
def injectedFields (r : RoundReport) : List InjectedField :=
  r.summary.injected.filterMap fun i =>
    match r.arena.typeDecl i.target, r.arena.field? i.field with
    | .ok owner, some f => some ⟨owner.name, f.name, f.ty⟩
    | _, _ => none

/-- The outcome of a round over a source. -/
def outcome (p : Project) (source : FilePath) (f : File) (r : RoundReport) : FileOutcome where
  source
  shown := (source.stripPrefix? p.root).getD source
  injected := injectedFields r
  diagnostics := r.located
  rendered := if r.annotated then some f.render else none

/-- Takes sources through a session, one after another. -/
def runFrom (p : Project) (fs : FileSystem) :
    Session → List FilePath → Except CommandError (List FileOutcome) × List LogRecord
  | _, [] => (.ok [], [])
  | session, source :: rest =>
    match fs.readText source with
    | .error e => (.error (.unreadable source e), [])
    | .ok text =>
      match session.injectText text with
      | .error e => (.error (.unparsable source e), [])
      | .ok (session, f, r) =>
        match runFrom p fs session rest with
        | (.ok outcomes, log) => (.ok (p.outcome source f r :: outcomes), r.log ++ log)
        | (.error e, log) => (.error e, r.log ++ log)

/-- Takes sources through one session of the command line. -/
def run (p : Project) (fs : FileSystem) (placement : Placement) (sources : List FilePath) :
    Except CommandError (List FileOutcome) × List LogRecord :=
  p.runFrom fs { host := .source .commandLine, placement } sources

end Project

end FieldGraft

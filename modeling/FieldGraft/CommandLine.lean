import FieldGraft.CommandLine.Help
import FieldGraft.CommandLine.LogFilter
import FieldGraft.CommandLine.RunSummary

/-!
# The command line

A command finds its project, collects the sources, takes them through a session and reports. `check`
stops there. `inject` shows the fields that would be added, puts the new texts in the place of the
old ones, or puts all sources below a directory.

Nothing is written before every source has been read and understood. So a command that fails on its
input has changed nothing.

* `CommandLine.execute` runs the program on a file system.
-/

namespace FieldGraft

namespace CommandLine

/-- What came of a command, or of a part of one. -/
structure Result where
  files : FileSystem
  lines : List Line
  outcome : Except CommandError Unit

/-- How a command talks: its messages and its log. -/
structure Desk where
  voice : Voice
  filter : LogFilter
  logColored : Bool

/-- The lines of log records. -/
def Desk.log (d : Desk) (rs : List LogRecord) : List Line :=
  d.filter.lines d.logColored rs

/-! ### Writing -/

/-- Where the copy of a source goes: below a directory by the names in its path. -/
def targetBelow (directory shown : FilePath) : FilePath :=
  (shown.components.filterMap fun c =>
    match c with
    | .name s => some (FilePath.mk s)
    | _ => none).foldl FilePath.join directory

/-- Writes the new text of a source, or its old content if it carried no annotations. -/
def writeOutcome (fs : FileSystem) (o : FileOutcome) (target : FilePath) :
    FileSystem × Except CommandError Unit :=
  match fs.makeParent target with
  | (fs, .error (parent, e)) => (fs, .error (.noDirectory parent e))
  | (fs, .ok ()) =>
    let written := match o.rendered with
      | some text => fs.write target (.text text)
      | none => fs.copy o.source target
    match written with
    | .ok fs => (fs, .ok ())
    | .error e => (fs, .error (.unwritable target e))

/-- Writes outcomes to their targets, with a line for each. -/
def writeAll (v : Voice) (target : FileOutcome → FilePath) (name : FileOutcome → FilePath) :
    FileSystem → List FileOutcome → Result
  | fs, [] => ⟨fs, [], .ok ()⟩
  | fs, o :: rest =>
    match writeOutcome fs o (target o) with
    | (fs, .error e) => ⟨fs, [], .error e⟩
    | (fs, .ok ()) =>
      let r := writeAll v target name fs rest
      { r with lines := v.entry Icon.file (name o).text ++ r.lines }

/-- The fields that would be added to a source. -/
def previewFile (v : Voice) (o : FileOutcome) : List Line :=
  if o.injected.isEmpty then []
  else v.pair "file" o.shown.text ++
    o.injected.flatMap (fun i => v.entry Icon.field s!"{i.type}.{i.field}: {i.ty}")

/-- Does with the outcomes what is asked for. -/
def apply (v : Voice) (mode : WriteMode) (fs : FileSystem) (outcomes : List FileOutcome) : Result :=
  match mode with
  | .preview =>
    ⟨fs, v.heading "Pending injections" ++ outcomes.flatMap (previewFile v) ++
      v.info "Dry run: pass --write or --out-dir to apply.", .ok ()⟩
  | .inPlace =>
    let r := writeAll v FileOutcome.source FileOutcome.shown fs
      (outcomes.filter (fun o => o.rendered.isSome))
    { r with lines := v.heading "Rewriting" ++ r.lines }
  | .below directory =>
    let target (o : FileOutcome) := targetBelow directory o.shown
    let r := writeAll v target target fs outcomes
    { r with lines := v.heading "Writing" ++ r.lines }

/-! ### Commands -/

/-- What a verbose command tells about its project. -/
def opening (a : Arguments) (v : Voice) (p : Project) (placement : Placement) : List Line :=
  (match p.configPath with
    | some path => v.detail s!"Using {path.text}"
    | none => []) ++
  (match a.verb with
    | .inject => v.detail s!"Insertion policy: {placement.name}"
    | .check => [])

/-- Reports on outcomes and concludes. -/
def report (a : Arguments) (v : Voice) (p : Project) (outcomes : List FileOutcome) :
    List Line × Except CommandError Unit :=
  let s : RunSummary := ⟨outcomes⟩
  let (last, verdict) := s.conclude v (a.denyWarnings || p.config.denyWarnings)
  (s.lines v ++ last, verdict)

/-- What follows when the outcomes are there. -/
def finish (a : Arguments) (v : Voice) (p : Project) (fs : FileSystem)
    (outcomes : List FileOutcome) : Result :=
  let applied : Result := match a.verb with
    | .check => ⟨fs, [], .ok ()⟩
    | .inject => apply v a.mode fs outcomes
  match applied.outcome with
  | .error _ => applied
  | .ok () =>
    let (lines, verdict) := report a v p outcomes
    ⟨applied.files, applied.lines ++ lines, verdict⟩

/-- A command in a project that has been found. -/
def runIn (a : Arguments) (d : Desk) (p : Project) (fs : FileSystem) : Result :=
  let v := d.voice
  let placement := a.placement.getD p.config.placement
  let before := opening a v p placement
  match p.collect fs a.paths with
  | .error e => ⟨fs, before, .error e⟩
  | .ok [] => ⟨fs, before ++ v.warning "No Rust files found.", .ok ()⟩
  | .ok sources =>
    let counted := match a.verb with
      | .check => v.detail s!"Checking {sources.length} file(s)"
      | .inject => []
    match p.run fs placement sources with
    | (.error e, log) => ⟨fs, before ++ counted ++ d.log log, .error e⟩
    | (.ok outcomes, log) =>
      let r := finish a v p fs outcomes
      { r with lines := before ++ counted ++ d.log log ++ r.lines }

/-- A command. -/
def run (a : Arguments) (d : Desk) (fs : FileSystem) : Result :=
  match Project.find fs a.config with
  | (.error e, log) => ⟨fs, d.log log, .error e⟩
  | (.ok p, log) =>
    let r := runIn a d p fs
    { r with lines := d.log log ++ r.lines }

/-! ### The program -/

/-- What the program leaves behind. -/
structure Exit where
  code : Nat
  lines : List Line
  files : FileSystem

/-- What is shown for arguments that ask for no run, with the exit code. Those that are not
understood get the short help on the error stream. -/
def detour (colored : Bool) : Detour → Nat × List Line
  | .usage => (2, (Help.page none false).map (fun l => .error (l.render colored)))
  | .help verb full => (0, (Help.page verb full).map (fun l => .output (l.render colored)))
  | .helpOnHelp => (0, (Help.helpPage.lines true).map (fun l => .output (l.render colored)))
  | .version => (0, [.output Help.versionLine])

/-- Runs the program. -/
def execute (args : List String) (e : Environment) (fs : FileSystem) : Exit :=
  let filter := LogFilter.ofEnvironment e
  let complaints := filter.complaintLines
  match Arguments.ofList args with
  | .error d =>
    let (code, lines) := detour e.linesColored d
    ⟨code, complaints ++ lines, fs⟩
  | .ok a =>
    let r := run a { voice := Voice.of a e, filter, logColored := e.linesColored } fs
    match r.outcome with
    | .ok () => ⟨0, complaints ++ r.lines, r.files⟩
    | .error err => ⟨1, complaints ++ r.lines ++ [.error err.line], r.files⟩

end CommandLine

end FieldGraft

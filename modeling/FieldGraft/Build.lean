import FieldGraft.FileSystem.Walk
import FieldGraft.Layout
import FieldGraft.Session

/-!
# Build runs

A build run takes the sources below its scan paths and writes each of them, with its fields added,
to the same place below an output directory. Files whose text would not change are not written. The
run goes through all files before errors in them make it fail; what cannot be read or written ends
it at once.

* `Build.run` is one run; it gives the new file system with everything the run says.
* `Build.sources` lists the sources below a scan path in order.
-/

namespace FieldGraft

/-- What a build run is asked to do. -/
structure Build where
  scan : List FilePath := []
  output : Option FilePath := none
  placement : Placement := .prepend
  denyWarnings : Bool := false
deriving DecidableEq, Repr, Inhabited

/-- Why a build run fails. -/
inductive BuildError where
  | noOutput
  | missingScanPath (path : FilePath)
  | unreadable (path : FilePath) (cause : FileError)
  | unparsable (path : FilePath) (cause : SourceError)
  | noDirectory (path : FilePath) (cause : FileError)
  | unwritable (path : FilePath) (cause : FileError)
  /-- The error diagnostics, one line each. -/
  | rejected (lines : List String)
  | denied (warnings : Nat)
deriving DecidableEq, Repr, Inhabited

/-- The texts shown to the user, from the outermost cause to the innermost. -/
def BuildError.chain : BuildError → List String
  | noOutput => ["OUT_DIR is not set; call output_dir() outside build scripts"]
  | missingScanPath p => [s!"Failed to scan {p.text}", s!"scan path {p.text} does not exist"]
  | unreadable p e => [s!"Failed to read {p.text}", e.message]
  | unparsable p e => [s!"failed to parse {p.text}: {e.message}", e.message]
  | noDirectory p e => [s!"Failed to create directory {p.text}", e.message]
  | unwritable p e => [s!"Failed to write {p.text}", e.message]
  | rejected lines => ["field injection failed:\n" ++ "\n".intercalate lines]
  | denied n => [s!"field injection produced {n} warning(s)"]

/-- What a build run did. -/
structure BuildReport where
  files : Nat := 0
  /-- Files whose text changed. -/
  written : Nat := 0
  injected : Nat := 0
  warnings : Nat := 0
deriving DecidableEq, Repr, Inhabited

/-- A source below a scan path. -/
structure SourceFile where
  path : FilePath
  /-- Its path from the scan path on. -/
  relative : FilePath
deriving DecidableEq, Repr, Inhabited

/-- A build run so far. -/
structure BuildState where
  files : FileSystem
  session : Session
  report : BuildReport := {}
  /-- The error diagnostics. -/
  errors : List String := []
  /-- Lines for the build system. -/
  output : List String := []
  log : List LogRecord := []

/-- Everything a build run produces. -/
structure BuildOutcome where
  files : FileSystem
  output : List String
  /-- Lines for the user. -/
  messages : List String
  log : List LogRecord
  result : Except BuildError BuildReport

namespace Build

/-- Names of files and directories that are left out. -/
def skippedNames : List String :=
  ["generated", "target"]

/-- A visited entry as a source, if it is one. -/
def sourceOf? (root : FilePath) (v : Visit) : Option SourceFile :=
  if v.isFile && v.path.isSource then
    match v.path.stripPrefix? root with
    | some relative =>
      if relative.components.any (fun c => skippedNames.contains c.text) then none
      else some ⟨v.path, relative⟩
    | none => none
  else none

/-- The sources below a path, in the order of their relative paths. -/
def sources (fs : FileSystem) (root : FilePath) : Except BuildError (List SourceFile) :=
  if fs.exists? root then
    .ok (((fs.walk .listed root).filterMap (sourceOf? root)).mergeSort
      (fun a b => a.relative.notAfter b.relative))
  else .error (.missingScanPath root)

/-- A diagnostic with the place in the file that it is about. -/
def diagnosticLine (p : FilePath) (d : LocatedDiagnostic) : String :=
  match d.location with
  | some l => s!"{p.text}:{l.line}:{l.column}: {d.diagnostic.message}"
  | none => s!"{p.text}: {d.diagnostic.message}"

/-- The lines for the diagnostics of one severity. -/
def diagnosticLines (severity : Severity) (p : FilePath) (r : RoundReport) : List String :=
  (r.located.filter (fun d => d.diagnostic.severity == severity)).map (diagnosticLine p)

/-- Writes a text to a path unless it is there already. The flag tells whether it was written. -/
def writeIfChanged (fs : FileSystem) (p : FilePath) (text : String) :
    FileSystem × Except BuildError Bool :=
  if fs.holds p text then (fs, .ok false)
  else match fs.makeParent p with
    | (fs, .error (parent, e)) => (fs, .error (.noDirectory parent e))
    | (fs, .ok ()) =>
      match fs.write p (.text text) with
      | .ok fs => (fs, .ok true)
      | .error e => (fs, .error (.unwritable p e))

/-- The text of a file after a round: as it was if it carried no annotations. -/
def outputText (source : String) (f : File) (r : RoundReport) : String :=
  if r.annotated then f.render else source

/-- Takes one source. -/
def buildFile (out : FilePath) (s : BuildState) (file : SourceFile) :
    BuildState × Except BuildError Unit :=
  match s.files.readText file.path with
  | .error e => (s, .error (.unreadable file.path e))
  | .ok source =>
    match s.session.injectText source with
    | .error e => (s, .error (.unparsable file.path e))
    | .ok (session, f, r) =>
      let warnings := diagnosticLines .warning file.path r
      let target := out.join file.relative
      let (files, written) := writeIfChanged s.files target (outputText source f r)
      let s := { s with
        files, session
        errors := s.errors ++ diagnosticLines .error file.path r
        output := s.output ++ warnings.map (fun l => "cargo:warning=" ++ l)
        log := s.log ++ r.log
        report := { s.report with warnings := s.report.warnings + warnings.length } }
      match written with
      | .error e => (s, .error e)
      | .ok b =>
        ({ s with report := { s.report with
            files := s.report.files + 1
            written := s.report.written + (if b then 1 else 0)
            injected := s.report.injected + r.summary.injected.length } }, .ok ())

/-- Takes a list of sources. -/
def buildFiles (out : FilePath) : BuildState → List SourceFile → BuildState × Except BuildError Unit
  | s, [] => (s, .ok ())
  | s, file :: rest =>
    match buildFile out s file with
    | (s, .ok ()) => buildFiles out s rest
    | (s, .error e) => (s, .error e)

/-- Takes the sources below a list of scan paths. -/
def buildPaths (out : FilePath) : BuildState → List FilePath → BuildState × Except BuildError Unit
  | s, [] => (s, .ok ())
  | s, root :: rest =>
    match sources s.files root with
    | .error e => (s, .error e)
    | .ok files =>
      match buildFiles out s files with
      | (s, .error e) => (s, .error e)
      | (s, .ok ()) =>
        buildPaths out { s with output := s.output ++ ["cargo:rerun-if-changed=" ++ root.text] }
          rest

/-- The scan paths of a run; by default there is one. -/
def roots (b : Build) : List FilePath :=
  if b.scan.isEmpty then [⟨"src/"⟩] else b.scan

/-- The output directory of a run: the one asked for, or one below that of the environment. -/
def outputDirectory? (b : Build) (environment : Option FilePath) : Option FilePath :=
  match b.output with
  | some p => some p
  | none => environment.map (fun p => p.join ⟨"fielder"⟩)

/-- The verdict on a run that went through all files. -/
def conclude (b : Build) (s : BuildState) : Except BuildError BuildReport :=
  if !s.errors.isEmpty then .error (.rejected s.errors)
  else if b.denyWarnings && 0 < s.report.warnings then .error (.denied s.report.warnings)
  else .ok s.report

/-- The closing line of a run that succeeded. -/
def closing (out : FilePath) (r : BuildReport) : String :=
  s!"fielder-build: injected {r.injected} field(s) into {r.files} file(s) under {out.text}"

/-- One run. `environment` is the directory that the environment sets aside for outputs. -/
def run (b : Build) (environment : Option FilePath) (fs : FileSystem) : BuildOutcome :=
  match b.outputDirectory? environment with
  | none => { files := fs, output := [], messages := [], log := [], result := .error .noOutput }
  | some out =>
    let session : Session := { host := .source .buildScript, placement := b.placement }
    let (s, gone) := buildPaths out { files := fs, session } b.roots
    let result := match gone with
      | .ok () => b.conclude s
      | .error e => .error e
    let messages := match result with
      | .ok r => [closing out r]
      | .error _ => []
    { files := s.files, output := s.output, messages, log := s.log, result }

end Build

end FieldGraft

import FieldGraft.FileSystem
import FieldGraft.Log
import FieldGraft.Placement
import FieldGraft.Toml.Reader

/-!
# Configuration

A project may hold a file `fielder.toml` with the settings of its runs. The file is looked for in a
directory and those around it, up to the first one that holds a `Cargo.toml`.

Keys that have no meaning are ignored, and a setting that is not given has its default. The settings
of a section may be given by name, or by position in an array.
-/

namespace FieldGraft

/-- The settings of a project. -/
structure Config where
  placement : Placement := .prepend
  /-- Warnings count as failures. -/
  denyWarnings : Bool := false
  /-- Where sources are, relative to the directory of the configuration. -/
  scan : List FilePath := [⟨"src"⟩]
  /-- Names of files and directories that are left out. -/
  exclude : List String := ["generated", "target"]
deriving DecidableEq, Repr, Inhabited

/-- Why there is no configuration to be had. -/
inductive ConfigError where
  | unreadable (path : FilePath) (cause : FileError)
  | invalid (path : FilePath)
deriving DecidableEq, Repr, Inhabited

/-- The texts shown to the user, from the outermost cause to the innermost. -/
def ConfigError.chain : ConfigError → List String
  | unreadable p e => [s!"i/o error on {p.text}: {e.message}", e.message]
  | invalid p => [s!"invalid configuration in {p.text}"]

namespace Config

/-! ### Settings in a document -/

/-- Whether a value is a table or array without content. -/
def isHollow : Toml → Bool
  | .array xs => xs.isEmpty
  | .tables xs => xs.isEmpty
  | .table _ entries => entries.isEmpty
  | _ => false

/-- A placement: its name, or a table in which the name has an empty value. -/
def placement? : Toml → Option Placement
  | .string s => (Placement.ofName s).toOption
  | .table _ [(name, v)] => if isHollow v then (Placement.ofName name).toOption else none
  | _ => none

/-- A truth value. -/
def flag? : Toml → Option Bool
  | .boolean b => some b
  | _ => none

/-- A string. -/
def string? : Toml → Option String
  | .string s => some s
  | _ => none

/-- A list of strings. -/
def strings? : Toml → Option (List String)
  | .array xs => xs.mapM string?
  | .tables xs => xs.mapM string?
  | _ => none

/-- The values of the settings of a section: by name, or by position. A date has no settings. -/
def settings? (names : List String) : Toml → Option (List (Option Toml))
  | .table _ entries => some (names.map (fun n => entries.lookup n))
  | .moment => some (names.map (fun _ => none))
  | .array xs => some (names.zipIdx.map (fun n => xs.drop n.2 |>.head?))
  | .tables xs => some (names.zipIdx.map (fun n => xs.drop n.2 |>.head?))
  | _ => none

/-- A setting that may be missing. -/
def setting {α : Type} (default : α) (read : Toml → Option α) : Option Toml → Option α
  | none => some default
  | some v => read v

/-- The two settings of a section. -/
def section? {α β : Type} (first : String × α × (Toml → Option α))
    (second : String × β × (Toml → Option β)) : Option Toml → Option (α × β)
  | none => some (first.2.1, second.2.1)
  | some v =>
    match settings? [first.1, second.1] v with
    | some [a, b] => do
      return (← setting first.2.1 first.2.2 a, ← setting second.2.1 second.2.2 b)
    | _ => none

/-- The settings that a document gives. -/
def ofToml? (document : Toml) : Option Config := do
  let parts ← settings? ["fielder", "paths"] document
  match parts with
  | [run, paths] =>
    let defaults : Config := {}
    let (placement, denyWarnings) ← section? ("insertion", defaults.placement, placement?)
      ("deny_warnings", defaults.denyWarnings, flag?) run
    let (scan, exclude) ← section? ("scan", defaults.scan.map FilePath.text, strings?)
      ("exclude", defaults.exclude, strings?) paths
    return { placement, denyWarnings, scan := scan.map FilePath.mk, exclude }
  | _ => none

/-- The settings that a text gives. -/
def ofText? (s : String) : Option Config :=
  (Toml.ofText? s).bind ofToml?

/-- Whether two configurations have the same settings, whatever the spelling of their paths. -/
def same (a b : Config) : Bool :=
  a.placement == b.placement && a.denyWarnings == b.denyWarnings && a.exclude == b.exclude &&
    a.scan.map FilePath.components == b.scan.map FilePath.components

/-- Whether a component of a path is left out. -/
def isExcluded (c : Config) (p : FilePath) : Bool :=
  p.components.any (fun component => c.exclude.contains component.text)

/-! ### Files -/

/-- The name of a configuration file. -/
def fileName : FilePath := ⟨"fielder.toml"⟩

/-- The name of a file beyond whose directory no configuration is looked for. -/
def boundaryName : FilePath := ⟨"Cargo.toml"⟩

/-- Reads a configuration file. -/
def load (fs : FileSystem) (p : FilePath) : Except ConfigError Config :=
  match fs.readText p with
  | .error e => .error (.unreadable p e)
  | .ok text =>
    match ofText? text with
    | some c => .ok c
    | none => .error (.invalid p)

/-- Looks for a configuration file in the directories of a list, in order. -/
def discoverIn (fs : FileSystem) : List FilePath → Except ConfigError (Option (FilePath × Config))
  | [] => .ok none
  | directory :: outer =>
    let candidate := directory.join fileName
    if fs.isFile candidate then
      match load fs candidate with
      | .ok c => .ok (some (candidate, c))
      | .error e => .error e
    else if fs.exists? (directory.join boundaryName) then .ok none
    else discoverIn fs outer

/-- Looks for a configuration file in a directory and those around it. -/
def discover (fs : FileSystem) (start : FilePath) :
    Except ConfigError (Option (FilePath × Config)) :=
  discoverIn fs start.ancestors

/-- The log record of a configuration that was found. -/
def loadedRecord (p : FilePath) : LogRecord where
  level := .debug
  topic := .config
  text := s!"loaded {p.text}"

end Config

end FieldGraft

import FieldGraft.CommandLine

/-!
# The executable

Reads the part of the disk that a command may look at into a `FileSystem`, runs the command on it,
writes back the files that the command changed and prints what it says.
-/

namespace FieldGraft.Disk

/-- The address of a path. -/
def address (path : String) : Address :=
  (FilePath.mk path).components.filterMap fun c =>
    match c with
    | .name s => some s
    | _ => none

/-- The path of an address. -/
def pathOf (a : Address) : String :=
  "/" ++ "/".intercalate a

/-- How deep directories are read. -/
def depthLimit : Nat := 64

/-- Reads a file. -/
def readContent (path : String) : IO Content := do
  return .ofBytes (← IO.FS.readBinFile path).toList

/-- What has been read. -/
structure Snapshot where
  files : FileSystem
  /-- The addresses below which everything has been read. -/
  seen : List Address := []

/-- Reads the entry at an address. A link is kept as a link to where it leads in the end; an address
that cannot be read is left out. -/
def loadEntry (s : Snapshot) (a : Address) : IO (Snapshot × Option Address) := do
  let path := pathOf a
  try
    let place ← IO.FS.realPath path
    let real := place.toString
    let put (e : Entry) : Snapshot := if a = [] then s else { s with files := s.files.place a e }
    if real != path then return (put (.link ⟨real⟩), some (address real))
    else if ← place.isDir then return (put .directory, some a)
    else return (put (.file (← readContent path)), none)
  catch _ => return (s, none)

/-- The names in a directory. -/
def namesIn (a : Address) : IO (List String) := do
  try
    let place ← IO.FS.realPath (pathOf a)
    if ← place.isDir then return ((← place.readDir).toList.map (fun e => e.fileName))
    else return []
  catch _ => return []

/-- Reads what lies at and below an address, and what the links there lead to. -/
def load : (fuel : Nat) → Snapshot → Address → IO Snapshot
  | 0, s, _ => return s
  | fuel + 1, s, a => do
    if s.seen.contains a then return s
    let (s, next) ← loadEntry s a
    let s := { s with seen := a :: s.seen }
    match next with
    | none => return s
    | some b =>
      if b != a then load fuel s b
      else (← namesIn a).foldlM (fun s name => load fuel s (a ++ [name])) s

/-- Reads the two files that decide whether a directory is the root of a project. -/
def loadMarkers (s : Snapshot) (directory : Address) : IO Snapshot :=
  [Config.fileName, Config.boundaryName].foldlM
    (fun s name => load depthLimit s (directory ++ address name.text)) s

/-- Reads what a path leads to, and the links on the way. -/
def loadPath (s : Snapshot) (p : FilePath) : IO Snapshot := do
  let full := (FilePath.mk (pathOf s.files.workingDirectory)).join p
  let mut s := s
  for q in full.ancestors.reverse do
    if let (some name, some parent) := (q.fileName?, q.parent?) then
      try
        let a := address (← IO.FS.realPath parent.text).toString ++ [name]
        s := (← loadEntry s a).1
        if q = full then s ← load depthLimit s a
      catch _ => pure ()
  try load depthLimit s (address (← IO.FS.realPath full.text).toString)
  catch _ => return s

/-- Reads what the arguments name, and what the configuration names. -/
def loadFor (s : Snapshot) (a : Arguments) : IO Snapshot := do
  let directory := match a.mode with
    | .below d => [d]
    | _ => []
  let s ← (a.config.toList ++ a.paths ++ directory).foldlM loadPath s
  match (Project.find s.files a.config).1 with
  | .error _ => return s
  | .ok project => (project.roots a.paths).foldlM loadPath s

/-- Reads what a command may look at. -/
def snapshot (args : List String) : IO FileSystem := do
  let here := address (← IO.currentDir).toString
  let start : Snapshot := { files := { workingDirectory := here } }
  match Arguments.ofList args with
  | .error _ => return start.files
  | .ok a =>
    let s ← ((List.range here.length).map here.take).foldlM loadMarkers start
    let s ← load depthLimit s here
    return (← loadFor s a).files

/-- Writes the files that differ. -/
def store (before after : FileSystem) : IO Unit := do
  for (a, c) in before.changes after do
    IO.FS.createDirAll (pathOf a.dropLast)
    match c with
    | .text s => IO.FS.writeFile (pathOf a) s
    | .binary bytes => IO.FS.writeBinFile (pathOf a) ⟨bytes.toArray⟩

/-- What the environment says. -/
def environment : IO Environment := do
  return { log := ← IO.getEnv "RUST_LOG", forceColor := ← IO.getEnv "CLICOLOR_FORCE"
           noColor := ← IO.getEnv "NO_COLOR" }

/-- Prints a line to its stream. -/
def print (l : Line) : IO Unit :=
  match l with
  | .output s => IO.println s
  | .error s => IO.eprintln s

end FieldGraft.Disk

/-- Runs the command line. -/
def main (args : List String) : IO UInt32 := do
  let before ← FieldGraft.Disk.snapshot args
  let exit := FieldGraft.CommandLine.execute args (← FieldGraft.Disk.environment) before
  FieldGraft.Disk.store before exit.files
  exit.lines.forM FieldGraft.Disk.print
  return exit.code.toUInt32

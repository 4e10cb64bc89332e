import FieldGraft.FileSystem

/-!
# Walking a directory tree

`walk` lists what lies at and below a path, each entry with the path that leads to it through the
given one. Links are either listed as links or followed; a followed link to a directory that is
already being listed, or to nothing, is left out.
-/

namespace FieldGraft

/-- Whether a walk goes through links. -/
inductive LinkRule where
  | listed
  | followed
deriving DecidableEq, Repr, Inhabited

/-- One entry of a walk. Its kind is that of the target if a link was followed. -/
structure Visit where
  path : FilePath
  entry : Entry
deriving DecidableEq, Repr, Inhabited

/-- Whether a file was visited. -/
def Visit.isFile (v : Visit) : Bool :=
  match v.entry with
  | .file _ => true
  | _ => false

namespace FileSystem

/-- What a name in a directory stands for, with the address of what it leads to. -/
def visitEntry (fs : FileSystem) (rule : LinkRule) (active : Address → Bool) (path : FilePath)
    (address : Address) (e : Entry) : Option (Address × Entry) :=
  match e, rule with
  | .link _, .followed =>
    match fs.entry true path with
    | .ok (a, .directory) => if active a then none else some (a, .directory)
    | .ok found => some found
    | .error _ => none
  | _, _ => some (address, e)

/-- What lies below a directory. `outer` holds the directories being listed. -/
def walkBelow (fs : FileSystem) (rule : LinkRule) :
    Nat → (outer : List Address) → FilePath → Address → List Visit
  | 0, _, _, _ => []
  | fuel + 1, outer, path, here =>
    (fs.children here).flatMap fun (name, e) =>
      let inner := path.join ⟨name⟩
      match fs.visitEntry rule (fun a => outer.contains a) inner (here ++ [name]) e with
      | none => []
      | some (a, .directory) =>
        ⟨inner, .directory⟩ :: walkBelow fs rule fuel (a :: outer) inner a
      | some (_, e) => [⟨inner, e⟩]

/-- No walk is deeper: between two links it goes down, and no link leads to a directory that is
being listed. -/
def walkDepth (fs : FileSystem) : Nat :=
  (fs.entries.length + 1) * (fs.entries.length + 1)

/-- Everything at and below a path. A path that is itself a link is entered if it leads to a
directory. -/
def walk (fs : FileSystem) (rule : LinkRule) (root : FilePath) : List Visit :=
  let below (a : Address) := fs.walkBelow rule fs.walkDepth [a] root a
  match fs.entry false root with
  | .error _ => []
  | .ok (a, .directory) => ⟨root, .directory⟩ :: below a
  | .ok (_, .file c) => [⟨root, .file c⟩]
  | .ok (_, .link target) =>
    match fs.entry true root, rule with
    | .ok (a, .directory), .followed => ⟨root, .directory⟩ :: below a
    | .ok (a, .directory), .listed => ⟨root, .link target⟩ :: below a
    | .ok (_, e), .followed => [⟨root, e⟩]
    | .error _, .followed => []
    | _, .listed => [⟨root, .link target⟩]

end FileSystem

end FieldGraft

import FieldGraft.FilePath

/-!
# File systems

A file system is a value: a directory tree with a working directory. Files, directories and links
are found at addresses, the lists of names that lead to them from the root. A path is resolved step
by step from the root or the working directory; links are followed, but not more than forty of them.

* `get?_set` says what an address holds after a change.
* `resolve` finds the entry of a path, or the vacant address at which it could be created.
-/

namespace FieldGraft

/-- Where something is: the names on the way from the root. -/
abbrev Address := List String

/-- What a file holds. -/
inductive Content where
  | text (s : String)
  /-- Bytes that are no text. -/
  | binary (bytes : List UInt8)
deriving DecidableEq, Repr, Inhabited

/-- The content of a file with the given bytes. -/
def Content.ofBytes (bytes : List UInt8) : Content :=
  match String.fromUTF8? ⟨bytes.toArray⟩ with
  | some s => .text s
  | none => .binary bytes

/-- What an address holds. -/
inductive Entry where
  | file (content : Content)
  | directory
  | link (target : FilePath)
deriving DecidableEq, Repr, Inhabited

/-- Why an operation on a path fails. -/
inductive FileError where
  | notFound
  | alreadyExists
  | notDirectory
  | isDirectory
  | nameTooLong
  | tooManyLinks
  | notText
  | notRegular
deriving DecidableEq, Repr, Inhabited

/-- The text shown to the user. -/
def FileError.message : FileError → String
  | notFound => "No such file or directory (os error 2)"
  | alreadyExists => "File exists (os error 17)"
  | notDirectory => "Not a directory (os error 20)"
  | isDirectory => "Is a directory (os error 21)"
  | nameTooLong => "File name too long (os error 36)"
  | tooManyLinks => "Too many levels of symbolic links (os error 40)"
  | notText => "stream did not contain valid UTF-8"
  | notRegular => "the source path is neither a regular file nor a symlink to a regular file"

/-- A directory tree and a place in it. The root is always there and has no entry of its own. -/
structure FileSystem where
  entries : List (Address × Entry) := []
  workingDirectory : Address := []
deriving DecidableEq, Repr, Inhabited

/-- Where a path leads. -/
inductive Destination where
  | occupied (address : Address) (entry : Entry)
  /-- There is nothing, but the directory that would hold it is there. -/
  | vacant (address : Address)
deriving DecidableEq, Repr, Inhabited

namespace FileSystem

/-! ### Entries -/

/-- What an address holds. -/
def get? (fs : FileSystem) (a : Address) : Option Entry :=
  if a = [] then some .directory else fs.entries.lookup a

/-- Puts an entry into a list of entries, in the place of an older one. -/
def setEntry (a : Address) (e : Entry) : List (Address × Entry) → List (Address × Entry)
  | [] => [(a, e)]
  | x :: xs => if x.1 = a then (a, e) :: xs else x :: setEntry a e xs

/-- The file system in which an address holds the given entry. -/
def set (fs : FileSystem) (a : Address) (e : Entry) : FileSystem :=
  { fs with entries := setEntry a e fs.entries }

/-- What is found after putting an entry into a list of entries. -/
theorem lookup_setEntry (a b : Address) (e : Entry) (xs : List (Address × Entry)) :
    (setEntry a e xs).lookup b = if b = a then some e else xs.lookup b := by
  induction xs with
  | nil =>
    by_cases h : b = a
    · subst h
      simp [setEntry]
    · have hne : (b == a) = false := by simpa using h
      simp [setEntry, List.lookup_cons, h, hne]
  | cons x xs ih =>
    obtain ⟨k, v⟩ := x
    by_cases hk : k = a
    · subst hk
      by_cases h : b = k
      · subst h
        simp [setEntry]
      · have hne : (b == k) = false := by simpa using h
        simp [setEntry, List.lookup_cons, h, hne]
    · by_cases h : b = k
      · subst h
        simp [setEntry, hk]
      · have hne : (b == k) = false := by simpa using h
        simp [setEntry, List.lookup_cons, hk, hne, ih]

/-- After a change an address holds the new entry, and every other address what it held. -/
theorem get?_set (fs : FileSystem) {a : Address} (ha : a ≠ []) (e : Entry) (b : Address) :
    (fs.set a e).get? b = if b = a then some e else fs.get? b := by
  by_cases hb : b = []
  · subst hb
    simp [get?, Ne.symm ha]
  · simp [get?, set, hb, lookup_setEntry]

/-- The names in a directory with their entries. -/
def children (fs : FileSystem) (a : Address) : List (String × Entry) :=
  fs.entries.filterMap fun (b, e) =>
    match b.getLast? with
    | some name => if b.dropLast = a then some (name, e) else none
    | none => none

/-! ### Resolving paths -/

/-- Follows the segments of a path from a directory. `follow` says where a link leads; a link in the
last place is followed only if `last` says so. -/
def descend (fs : FileSystem) (last : Bool)
    (follow : Address → FilePath → List String → Except FileError Destination) :
    Address → List String → Except FileError Destination
  | here, [] => .ok (.occupied here .directory)
  | here, s :: rest =>
    match Component.ofSegment? s with
    | none => descend fs last follow here rest
    | some .parent => descend fs last follow here.dropLast rest
    | some _ =>
      let next := here ++ [s]
      if 255 < s.utf8ByteSize then .error .nameTooLong
      else match fs.get? next with
        | none => if rest.isEmpty then .ok (.vacant next) else .error .notFound
        | some .directory => descend fs last follow next rest
        | some (.file c) =>
          if rest.isEmpty then .ok (.occupied next (.file c)) else .error .notDirectory
        | some (.link target) =>
          if rest.isEmpty && !last then .ok (.occupied next (.link target))
          else follow here target rest

/-- Follows segments with at most `links` links. -/
def descendUpTo (fs : FileSystem) (last : Bool) :
    Nat → Address → List String → Except FileError Destination
  | 0 => descend fs last (fun _ _ _ => .error .tooManyLinks)
  | links + 1 => descend fs last fun here target rest =>
    descendUpTo fs last links (if target.isAbsolute then [] else here) (target.segments ++ rest)

/-- How many links one path may lead through. -/
def linkLimit : Nat := 40

/-- Follows segments from the place where a path starts. -/
def resolveSegments (fs : FileSystem) (last absolute : Bool) (segments : List String) :
    Except FileError Destination :=
  fs.descendUpTo last linkLimit (if absolute then [] else fs.workingDirectory) segments

/-- Where a path leads; `last` says whether a link at the end is followed. -/
def resolve (fs : FileSystem) (last : Bool) (p : FilePath) : Except FileError Destination :=
  if p.text = "" then .error .notFound else fs.resolveSegments last p.isAbsolute p.segments

/-- The entry of a path. -/
def entry (fs : FileSystem) (last : Bool) (p : FilePath) : Except FileError (Address × Entry) :=
  match fs.resolve last p with
  | .ok (.occupied a e) => .ok (a, e)
  | .ok (.vacant _) => .error .notFound
  | .error e => .error e

/-- Whether a path leads to something. -/
def exists? (fs : FileSystem) (p : FilePath) : Bool :=
  match fs.entry true p with
  | .ok _ => true
  | .error _ => false

/-- Whether a path leads to a file. -/
def isFile (fs : FileSystem) (p : FilePath) : Bool :=
  match fs.entry true p with
  | .ok (_, .file _) => true
  | _ => false

/-- Whether a path leads to a directory. -/
def isDirectory (fs : FileSystem) (p : FilePath) : Bool :=
  match fs.entry true p with
  | .ok (_, .directory) => true
  | _ => false

/-! ### Reading -/

/-- The content of a file. -/
def read (fs : FileSystem) (p : FilePath) : Except FileError Content :=
  match fs.entry true p with
  | .ok (_, .file c) => .ok c
  | .ok _ => .error .isDirectory
  | .error e => .error e

/-- The text in a file. -/
def readText (fs : FileSystem) (p : FilePath) : Except FileError String :=
  match fs.read p with
  | .ok (.text s) => .ok s
  | .ok (.binary _) => .error .notText
  | .error e => .error e

/-- Whether a file holds exactly the given text. -/
def holds (fs : FileSystem) (p : FilePath) (text : String) : Bool :=
  match fs.readText p with
  | .ok s => s == text
  | .error _ => false

/-! ### Changing -/

/-- The directory that holds the last segment of a path, and that segment; blank segments at the end
count for nothing. -/
def holder (fs : FileSystem) (p : FilePath) : Except FileError (Address × Option Component) :=
  let body := (p.segments.reverse.dropWhile (fun s => s == "")).reverse
  match body.getLast? with
  | none => .ok ([], none)
  | some s =>
    match fs.resolveSegments true p.isAbsolute body.dropLast with
    | .ok (.occupied a .directory) => .ok (a, Component.ofSegment? s)
    | .ok (.occupied _ _) => .error .notDirectory
    | .ok (.vacant _) => .error .notFound
    | .error e => .error e

/-- Makes one directory. -/
def makeDirectory (fs : FileSystem) (p : FilePath) : Except FileError FileSystem :=
  if p.text = "" then .error .notFound
  else match fs.holder p with
    | .error e => .error e
    | .ok (a, some (.name s)) =>
      if 255 < s.utf8ByteSize then .error .nameTooLong
      else match fs.get? (a ++ [s]) with
        | some _ => .error .alreadyExists
        | none => .ok (fs.set (a ++ [s]) .directory)
    | .ok _ => .error .alreadyExists

/-- Makes the first of a list of directories, each of which lies in the next. What was made before a
failure stays. -/
def makeDirectoriesOf (fs : FileSystem) : List FilePath → FileSystem × Except FileError Unit
  | [] => (fs, .error .notFound)
  | p :: outer =>
    if p.components.isEmpty then (fs, .ok ())
    else match fs.makeDirectory p with
      | .ok fs' => (fs', .ok ())
      | .error .notFound =>
        match makeDirectoriesOf fs outer with
        | (fs', .error e) => (fs', .error e)
        | (fs', .ok ()) =>
          match fs'.makeDirectory p with
          | .ok fs'' => (fs'', .ok ())
          | .error e => (fs', if fs'.isDirectory p then .ok () else .error e)
      | .error e => (fs, if fs.isDirectory p then .ok () else .error e)

/-- Makes a directory and all that it lies in. -/
def makeDirectories (fs : FileSystem) (p : FilePath) : FileSystem × Except FileError Unit :=
  fs.makeDirectoriesOf p.ancestors

/-- Makes the directory that a path lies in. A failure names that directory. -/
def makeParent (fs : FileSystem) (p : FilePath) : FileSystem × Except (FilePath × FileError) Unit :=
  match p.parent? with
  | none => (fs, .ok ())
  | some parent =>
    match fs.makeDirectories parent with
    | (fs', .ok ()) => (fs', .ok ())
    | (fs', .error e) => (fs', .error (parent, e))

/-- Where a file is written. -/
def writeAddress (fs : FileSystem) (p : FilePath) : Except FileError Address :=
  if p.text.toList.getLast? = some '/' then
    match fs.holder p with
    | .ok _ => .error .isDirectory
    | .error e => .error e
  else match fs.resolve true p with
    | .ok (.vacant a) => .ok a
    | .ok (.occupied a (.file _)) => .ok a
    | .ok (.occupied _ _) => .error .isDirectory
    | .error e => .error e

/-- Writes a file. -/
def write (fs : FileSystem) (p : FilePath) (c : Content) : Except FileError FileSystem :=
  match fs.writeAddress p with
  | .ok a => .ok (fs.set a (.file c))
  | .error e => .error e

/-- Copies a file. The destination is emptied before the source is read, so a file copied onto
itself loses its content. -/
def copy (fs : FileSystem) (source destination : FilePath) : Except FileError FileSystem :=
  match fs.entry true source with
  | .ok (a, .file _) =>
    match fs.writeAddress destination with
    | .ok b =>
      let emptied := fs.set b (.file (.text ""))
      match emptied.get? a with
      | some (.file c) => .ok (emptied.set b (.file c))
      | _ => .ok emptied
    | .error e => .error e
  | .ok _ => .error .notRegular
  | .error e => .error e

/-- Puts an entry at an address, and directories at the vacant addresses on the way to it. -/
def place (fs : FileSystem) (a : Address) (e : Entry) : FileSystem :=
  let holders := (List.range a.length).map (fun n => a.take n)
  let vacant := holders.filter (fun b => (fs.get? b).isNone)
  (vacant.foldl (fun fs b => fs.set b .directory) fs).set a e

/-- The files of `after` that `before` does not have with the same content. -/
def changes (before after : FileSystem) : List (Address × Content) :=
  after.entries.filterMap fun (a, e) =>
    match e with
    | .file c => if before.get? a = some (.file c) then none else some (a, c)
    | _ => none

end FileSystem

end FieldGraft

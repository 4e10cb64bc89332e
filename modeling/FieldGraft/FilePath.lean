import FieldGraft.Text.Blank
import FieldGraft.Text.Search

/-!
# Paths

A path is a text whose segments are divided by slashes. What it denotes is its list of components:
empty segments and `.` count for nothing, apart from a `.` at the front of a relative path. Paths
are shown as they were written, and compared and ordered by their components.

* `components` is the meaning of a path, `text` its spelling.
* `join`, `parent?` and `stripPrefix?` work on the spelling, so that what they keep is kept
  verbatim.
-/

namespace FieldGraft

/-- One step of a path. -/
inductive Component where
  | root
  | current
  | parent
  | name (text : String)
deriving DecidableEq, Repr, Inhabited

namespace Component

/-- The component as it is written. -/
def text : Component → String
  | root => "/"
  | current => "."
  | parent => ".."
  | name s => s

/-- The order of the kinds of components. -/
def rank : Component → Nat
  | root => 0
  | current => 1
  | parent => 2
  | name _ => 3

/-- Components are ordered by kind, names by their characters. -/
def order (a b : Component) : Ordering :=
  (compare a.rank b.rank).then (compare a.text b.text)

/-- What a segment after the front of a path denotes. -/
def ofSegment? (s : String) : Option Component :=
  if s = "" ∨ s = "." then none else if s = ".." then some parent else some (name s)

/-- Lists of components in the order of a dictionary. -/
def orderList : List Component → List Component → Ordering
  | [], [] => .eq
  | [], _ :: _ => .lt
  | _ :: _, [] => .gt
  | a :: as, b :: bs => (a.order b).then (orderList as bs)

end Component

/-- A path, given by its spelling. -/
structure FilePath where
  text : String
deriving DecidableEq, Repr, Inhabited

namespace FilePath

/-- Whether a segment counts for nothing. -/
def isBlankSegment (s : String) : Bool :=
  (Component.ofSegment? s).isNone

/-- The texts between the slashes. -/
def segments (p : FilePath) : List String :=
  (Text.pieces (fun c => c == '/') p.text.toList).map String.ofList

/-- A path from the front component, if there is one, and the segments after it. -/
def ofParts (front : Option Component) (body : List String) : FilePath :=
  let rest := "/".intercalate body
  match front with
  | some .root => ⟨"/" ++ rest⟩
  | some .current => ⟨if body.isEmpty then "." else "./" ++ rest⟩
  | _ => ⟨rest⟩

/-- The front component, which is the root or a leading `.`, and the segments after it. -/
def parts (p : FilePath) : Option Component × List String :=
  match p.segments with
  | "" :: s :: rest => (some .root, s :: rest)
  | "." :: rest => (some .current, rest)
  | body => (none, body)

/-- Whether a path starts at the root. -/
def isAbsolute (p : FilePath) : Bool :=
  p.parts.1 == some .root

/-- The steps that a path denotes. -/
def components (p : FilePath) : List Component :=
  p.parts.1.toList ++ p.parts.2.filterMap Component.ofSegment?

/-- Two spellings of the same steps. -/
def same (p q : FilePath) : Bool :=
  p.components == q.components

/-- Paths are ordered by their components. -/
def order (p q : FilePath) : Ordering :=
  Component.orderList p.components q.components

/-- Whether `p` is not after `q`. -/
def notAfter (p q : FilePath) : Bool :=
  p.order q != .gt

/-- Leaves out the blank segments at the end. -/
def trimRight (body : List String) : List String :=
  (body.reverse.dropWhile isBlankSegment).reverse

/-- Leaves out the blank segments at both ends. -/
def trim (body : List String) : List String :=
  trimRight (body.dropWhile isBlankSegment)

/-- `q` below `p`; an absolute `q` replaces `p`. -/
def join (p q : FilePath) : FilePath :=
  if q.isAbsolute then q
  else if p.text = "" ∨ p.text.toList.getLast? = some '/' then ⟨p.text ++ q.text⟩
  else ⟨p.text ++ "/" ++ q.text⟩

/-- The path without its last component, unless it is empty or the root. -/
def parent? (p : FilePath) : Option FilePath :=
  let (front, body) := p.parts
  match (trimRight body).dropLast, trimRight body with
  | rest, _ :: _ => some (ofParts front (trimRight rest))
  | _, [] => if front = some .current then some ⟨""⟩ else none

/-- The path and what is left of it by taking the last component away, at most `fuel` times. -/
def ancestorsUpTo : Nat → FilePath → List FilePath
  | 0, p => [p]
  | fuel + 1, p =>
    match p.parent? with
    | some q => p :: ancestorsUpTo fuel q
    | none => [p]

/-- The path and what is left of it by taking the last component away again and again. A path has no
more components than characters. -/
def ancestors (p : FilePath) : List FilePath :=
  ancestorsUpTo p.text.length p

/-- The segments after the first `count` that are not blank. -/
def dropNamed : Nat → List String → List String
  | 0, body => body
  | _ + 1, [] => []
  | count + 1, s :: rest =>
    if isBlankSegment s then dropNamed (count + 1) rest else dropNamed count rest

/-- What follows the components of `base`, if the path starts with them. -/
def stripPrefix? (p base : FilePath) : Option FilePath :=
  let (front, body) := p.parts
  let lead := base.components
  if lead.isEmpty then some (ofParts front (trimRight body))
  else if lead.isPrefixOf p.components then
    some (ofParts none (trim (dropNamed (lead.length - front.toList.length) body)))
  else none

/-- The last component, if it is a name. -/
def fileName? (p : FilePath) : Option String :=
  match p.components.getLast? with
  | some (.name s) => some s
  | _ => none

/-- What follows the last dot of the name. A dot at the front of a name starts no extension. -/
def extension? (p : FilePath) : Option String :=
  match p.fileName? with
  | none => none
  | some s =>
    let back := s.toList.reverse
    match back.dropWhile (fun c => c != '.') with
    | _ :: _ :: _ => some (String.ofList (back.takeWhile (fun c => c != '.')).reverse)
    | _ => none

/-- Whether the path names a source file. -/
def isSource (p : FilePath) : Bool :=
  p.extension? == some "rs"

end FilePath

end FieldGraft

import FieldGraft.Modifiers

/-!
# The arena of declarations

Types, their fields and their constructors are nodes of one arena and are referred to by index. A
type keeps the ordered list of its members, and every member knows its type. The operations are
`addType`, `insertMember` (with `pushField` and `pushConstructor`) and `setLocation`; nothing is
ever removed.
-/

namespace FieldGraft

/-- The index of a node. -/
structure NodeId where
  index : Nat
deriving DecidableEq, Repr, Inhabited

/-- How a node id is shown. -/
def NodeId.display (id : NodeId) : String :=
  s!"NodeId({id.index})"

/-- The kinds of declared types. -/
inductive DeclKind where
  /-- A struct with named fields, the only kind that takes new fields. -/
  | record
  | tupleStruct
  | unitStruct
  | enumeration
  | union
  | trait
deriving DecidableEq, Repr, Inhabited

namespace DeclKind

/-- The words used in messages. -/
def describe : DeclKind → String
  | record => "struct"
  | tupleStruct => "tuple struct"
  | unitStruct => "unit struct"
  | enumeration => "enum"
  | union => "union"
  | trait => "trait"

end DeclKind

/-- A place in a source text, lines and columns from 1. -/
structure Location where
  line : Nat
  column : Nat
deriving DecidableEq, Repr, Inhabited

/-- A declared type. -/
structure TypeDecl where
  name : String
  kind : DeclKind
  members : List NodeId := []
deriving DecidableEq, Repr, Inhabited

/-- A field. `ty` is its type as written, which is the simple name for a synthesized field. -/
structure FieldDecl where
  name : String
  ty : String
  modifiers : Modifiers
  synthetic : Bool
deriving DecidableEq, Repr, Inhabited

/-- A function that makes a value of its type. -/
structure ConstructorDecl where
  name : String
  params : Nat
deriving DecidableEq, Repr, Inhabited

/-- What a node declares. -/
inductive Declaration where
  | type (decl : TypeDecl)
  | field (decl : FieldDecl)
  | constructor (decl : ConstructorDecl)
deriving DecidableEq, Repr, Inhabited

/-- A node of the arena. -/
structure Node where
  declaration : Declaration
  parent : Option NodeId := none
  location : Option Location := none
deriving DecidableEq, Repr, Inhabited

/-- Misuse of the arena. -/
inductive ArenaError where
  | notAType (node : NodeId)
  | unknownNode (node : NodeId)
deriving DecidableEq, Repr, Inhabited

/-- The text shown to the user. -/
def ArenaError.message : ArenaError → String
  | notAType id => s!"node {id.display} is not a type declaration"
  | unknownNode id => s!"node {id.display} does not exist in this tree"

/-- All nodes by index. -/
structure Arena where
  nodes : Array Node := #[]
deriving DecidableEq, Repr, Inhabited

namespace Arena

/-- The number of nodes. -/
def size (a : Arena) : Nat :=
  a.nodes.size

/-- The node with an id. -/
def get? (a : Arena) (id : NodeId) : Option Node :=
  a.nodes[id.index]?

/-- The type declared by a node. -/
def typeDecl (a : Arena) (id : NodeId) : Except ArenaError TypeDecl :=
  match a.get? id with
  | some { declaration := .type decl, .. } => .ok decl
  | some _ => .error (.notAType id)
  | none => .error (.unknownNode id)

/-- The field declared by a node. -/
def field? (a : Arena) (id : NodeId) : Option FieldDecl :=
  match a.get? id with
  | some { declaration := .field decl, .. } => some decl
  | _ => none

/-- The constructor declared by a node. -/
def constructor? (a : Arena) (id : NodeId) : Option ConstructorDecl :=
  match a.get? id with
  | some { declaration := .constructor decl, .. } => some decl
  | _ => none

/-- The members of a type in order. -/
def members (a : Arena) (owner : NodeId) : Except ArenaError (List NodeId) := do
  return (← a.typeDecl owner).members

/-- The members of a type in order; none for any other node. -/
def memberList (a : Arena) (owner : NodeId) : List NodeId :=
  match a.typeDecl owner with
  | .ok decl => decl.members
  | .error _ => []

/-- The fields of a type in member order. -/
def fields (a : Arena) (owner : NodeId) : List (NodeId × FieldDecl) :=
  (a.memberList owner).filterMap (fun id => (a.field? id).map (fun f => (id, f)))

/-- The constructors of a type in member order. -/
def constructors (a : Arena) (owner : NodeId) : List (NodeId × ConstructorDecl) :=
  (a.memberList owner).filterMap (fun id => (a.constructor? id).map (fun c => (id, c)))

/-- All types in order of declaration. -/
def types (a : Arena) : List (NodeId × TypeDecl) :=
  (List.range a.size).filterMap fun i =>
    match a.typeDecl ⟨i⟩ with
    | .ok decl => some (⟨i⟩, decl)
    | .error _ => none

/-- Adds a node. -/
def alloc (a : Arena) (declaration : Declaration) (parent : Option NodeId) : Arena × NodeId :=
  (⟨a.nodes.push { declaration, parent }⟩, ⟨a.size⟩)

/-- Declares a type without members. -/
def addType (a : Arena) (name : String) (kind : DeclKind) : Arena × NodeId :=
  a.alloc (.type { name, kind }) none

/-- Puts an id into a member list; a position past the end is the end. -/
def insertAt (members : List NodeId) (position : Nat) (id : NodeId) : List NodeId :=
  members.take position ++ id :: members.drop position

/-- A node with one more member, if it declares a type. -/
def withMember (n : Node) (position : Nat) (id : NodeId) : Node :=
  match n.declaration with
  | .type decl =>
    { n with declaration := .type { decl with members := insertAt decl.members position id } }
  | _ => n

/-- Adds a member at a position of its type's member list. -/
def insertMember (a : Arena) (owner : NodeId) (position : Nat) (declaration : Declaration) :
    Except ArenaError (Arena × NodeId) := do
  let _ ← a.typeDecl owner
  let (b, id) := a.alloc declaration (some owner)
  return (⟨b.nodes.modify owner.index (withMember · position id)⟩, id)

/-- Adds a field at the end of a type. -/
def pushField (a : Arena) (owner : NodeId) (decl : FieldDecl) :
    Except ArenaError (Arena × NodeId) := do
  let ms ← a.members owner
  a.insertMember owner ms.length (.field decl)

/-- Adds a constructor at the end of a type. -/
def pushConstructor (a : Arena) (owner : NodeId) (decl : ConstructorDecl) :
    Except ArenaError (Arena × NodeId) := do
  let ms ← a.members owner
  a.insertMember owner ms.length (.constructor decl)

/-- Records where a node stands in the source. -/
def setLocation (a : Arena) (id : NodeId) (location : Location) : Except ArenaError Arena :=
  if id.index < a.size then
    .ok ⟨a.nodes.modify id.index (fun n => { n with location := some location })⟩
  else .error (.unknownNode id)

/-- Where a node stands in the source. -/
def location? (a : Arena) (id : NodeId) : Option Location :=
  (a.get? id).bind Node.location

/-- A short name for a node in diagnostics. -/
def label (a : Arena) (id : NodeId) : String :=
  match a.get? id with
  | some { declaration := .type decl, .. } => s!"{decl.kind.describe} `{decl.name}`"
  | some { declaration := .field decl, .. } => s!"field `{decl.name}`"
  | some { declaration := .constructor decl, .. } => s!"constructor `{decl.name}`"
  | none => id.display

end Arena

end FieldGraft

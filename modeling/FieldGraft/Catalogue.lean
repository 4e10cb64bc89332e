import FieldGraft.Annotation
import FieldGraft.Round

/-!
# The declarations of a source unit

`Catalogue.ofItems` enters every struct, enumeration, union and trait of an item list into an arena:
the named fields of structs, and the constructors found in `impl` blocks and derives. Inline modules
are scopes of their own: an `impl` block belongs to a type of its own scope, and among types of one
name to the last. The annotations on the types become the batch of a round.
-/

namespace FieldGraft

/-- What an item list declares. -/
structure Catalogue where
  arena : Arena := {}
  /-- The types with requests. -/
  batch : List Target := []
  /-- The imports of all scopes. -/
  imports : List UseTree := []
  /-- Refused annotations, each with the type it stands on. -/
  errors : List (NodeId × AnnotationError) := []
  /-- The structs in the order of their items. -/
  structs : List NodeId := []
  /-- The position of each field among the fields of its struct. -/
  slots : List (NodeId × Nat) := []
deriving Inhabited

/-- The types of a scope by name, the latest first. -/
abbrev ScopeNames := List (String × NodeId)

/-- The modifiers that a written visibility amounts to. -/
def Visibility.modifiers : Visibility → Modifiers
  | .inherited => Modifiers.none
  | .exported => Modifiers.publicOnly
  | .restricted _ => Modifiers.crateOnly

/-- The kind of a struct. -/
def StructBody.kind : StructBody → DeclKind
  | .named _ _ _ => .record
  | .tuple _ _ => .tupleStruct
  | .unit _ => .unitStruct

/-- The kind of a declaration that is no struct. -/
def Nominal.kind : Nominal → DeclKind
  | .enumeration => .enumeration
  | .union => .union
  | .trait => .trait

/-- The named fields of a struct. -/
def StructBody.fields : StructBody → List FieldDef
  | .named _ fields _ => fields
  | _ => []

/-- The field that a field definition declares. -/
def FieldDef.decl : FieldDef → FieldDecl
  | .mk _ vis name ty =>
    { name := name.text, ty := ty.text, modifiers := vis.modifiers, synthetic := false }

/-- The name of a field definition. -/
def FieldDef.name : FieldDef → Word
  | .mk _ _ name _ => name

/-- The last name of a plain path type, parentheses around it aside. -/
def Code.simpleName? : Code → Option String
  | .path p => p.lastName?
  | .node .parenType [.group _ .paren [c]] => c.simpleName?
  | _ => none

/-- The place of a position, columns from 1. -/
def Position.location (p : Position) : Location :=
  ⟨p.line, p.column + 1⟩

namespace Catalogue

/-- Records the place of a node. -/
def place (c : Catalogue) (id : NodeId) (pos : Position) : Catalogue :=
  match c.arena.setLocation id pos.location with
  | .ok arena => { c with arena }
  | .error _ => c

/-- Enters a type and its annotations. -/
def declare (c : Catalogue) (name : Word) (kind : DeclKind) (attrs : List Attribute) :
    Catalogue × NodeId :=
  let (arena, id) := c.arena.addType name.text kind
  let c := { c with arena }.place id name.pos
  let read := readRequests attrs
  let requests := read.filterMap Except.toOption
  let errors := read.filterMap fun r =>
    match r with
    | .ok _ => none
    | .error e => some (id, e)
  let batch := if requests.isEmpty then c.batch else c.batch ++ [⟨id, requests⟩]
  ({ c with errors := c.errors ++ errors, batch }, id)

/-- Enters the fields of a struct, the first of which has position `slot`. -/
def addFields (owner : NodeId) : Catalogue → Nat → List FieldDef → Catalogue
  | c, _, [] => c
  | c, slot, f :: fs =>
    match c.arena.pushField owner f.decl with
    | .ok (arena, id) =>
      let c := { c with arena, slots := c.slots ++ [(id, slot)] }.place id f.name.pos
      addFields owner c (slot + 1) fs
    | .error _ => addFields owner c (slot + 1) fs

/-- Enters a constructor. -/
def addConstructor (c : Catalogue) (owner : NodeId) (name : String) (params : Nat)
    (pos : Position) : Catalogue :=
  match c.arena.pushConstructor owner { name, params } with
  | .ok (arena, id) => { c with arena }.place id pos
  | .error _ => c

/-- Whether a parameter counts; the trailing `...` does not. -/
def isCounted : Param → Bool
  | .mk role _ => role != .variadic

/-- Whether a parameter is a receiver. -/
def isReceiver : Param → Bool
  | .mk role _ => role == .receiver

/-- Whether a return type is the type itself. -/
def returnsSelf (selfName : String) : List Code → Bool
  | [_, ty] => ty.simpleName?.any (fun n => n == "Self" || n == selfName)
  | _ => false

/-- Enters a member of an inherent `impl` block if it is a constructor. -/
def addMember (owner : NodeId) (selfName : String) (c : Catalogue) (member : Code) : Catalogue :=
  match member with
  | .fn _ name _ params _ output _ =>
    if params.any isReceiver || !returnsSelf selfName output then c
    else c.addConstructor owner name.text (params.filter isCounted).length name.pos
  | _ => c

/-- Enters the constructors of an `impl` block. -/
def addImpl (names : ScopeNames) (c : Catalogue) (item : Item) : Catalogue :=
  match item with
  | .impl _ _ trait selfTy _ _ members =>
    match selfTy.simpleName? with
    | none => c
    | some selfName =>
      match names.lookup selfName with
      | none => c
      | some owner =>
        match trait with
        | .of _ path =>
          if path.lastName? == some "Default" then
            c.addConstructor owner "default" 0 selfTy.pos
          else c
        | .inherent => members.foldl (addMember owner selfName) c
  | _ => c

mutual

/-- Enters one item of a scope. -/
def addItem (c : Catalogue) (names : ScopeNames) : Item → Catalogue × ScopeNames
  | .struct attrs _ name _ body =>
    let (c, id) := c.declare name body.kind attrs
    let c := addFields id { c with structs := c.structs ++ [id] } 0 body.fields
    let c := if derivesDefault attrs then c.addConstructor id "default" 0 name.pos else c
    (c, (name.text, id) :: names)
  | .nominal kind attrs _ name _ =>
    let (c, id) := c.declare name kind.kind attrs
    (c, (name.text, id) :: names)
  | .use _ _ _ tree => ({ c with imports := c.imports ++ [tree] }, names)
  | .module _ _ _ _ items =>
    let (c, inner) := addItems c [] items
    (items.foldl (addImpl inner) c, names)
  | .impl _ _ _ _ _ _ _ => (c, names)
  | .other _ _ => (c, names)

/-- Enters the items of a scope. -/
def addItems (c : Catalogue) (names : ScopeNames) : List Item → Catalogue × ScopeNames
  | [] => (c, names)
  | i :: is =>
    let (c, names) := addItem c names i
    addItems c names is

end

/-- The declarations of a list of items. -/
def ofItems (items : List Item) : Catalogue :=
  let (c, names) := addItems {} [] items
  items.foldl (addImpl names) c

/-- The types known in the unit: standard ones, declared ones and imported names. -/
def types (c : Catalogue) : TypeTable :=
  c.imports.foldl TypeTable.importTree (TypeTable.ofArena c.arena)

end Catalogue

end FieldGraft

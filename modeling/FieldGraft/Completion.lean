import FieldGraft.Source.Code
import FieldGraft.Source.TokenStream

/-!
# Completing struct literals and patterns

A struct that has received fields leaves its literals short of members and its patterns short of
fields. Completion mends both: a literal gets a default value for each field that it does not name,
and a pattern that misses a field gets a `..`. A literal or pattern with a `..` of its own already
covers every field.

* `Completion.target?` decides which struct a path means.
* `Code.complete` visits a piece of code. Inner modules are scopes of their own, and tokens kept
  unread are left alone.
-/

namespace FieldGraft

/-- The structs of a scope that received fields: each path as written from the scope, and the names
of the new fields. The latest entry of a path comes first and is the one that counts. -/
abbrev Received := List (String × List String)

/-- The name that a text is, or the text itself if it is no identifier. -/
def Word.ofText (text : String) : Word :=
  match identifier? text with
  | some (name, pos) => ⟨name, pos⟩
  | none => ⟨text, {}⟩

/-- What completion knows about the place it is at. -/
structure Completion where
  received : Received
  /-- The path that `Self` stands for. -/
  selfTy : Option String := none
deriving Inhabited

/-- The names of a plain path type, as one text. -/
def Code.pathText? : Code → Option String
  | .path p => p.names?.map (String.intercalate "::")
  | _ => none

namespace Completion

/-- Where a path leads from the current scope. -/
def destination? (s : Completion) (names : List String) : Option String :=
  let names := match names with
    | "self" :: rest => rest
    | _ => names
  match names with
  | ["Self"] => s.selfTy
  | _ => some (String.intercalate "::" names)

/-- The fields that the struct at a path has received. -/
def target? (s : Completion) (p : Path) : Option (List String) :=
  match p with
  | .named none segments =>
    (s.destination? (segments.map (fun x => x.name.text))).bind (fun d => s.received.lookup d)
  | _ => none

/-- Whether a member names a field. -/
def names (field : String) : Member → Bool
  | .mk _ (.named w) _ => w.text == field
  | .mk _ (.indexed _) _ => false

/-- The call `::core::default::Default::default()`. -/
def defaultValue : Code :=
  let segment (name : String) : Segment := .mk ⟨name, {}⟩ []
  .node .call
    [.path (.named (some {}) (["core", "default", "Default", "default"].map segment)),
      .group {} .paren []]

/-- A member with the default value. -/
def defaultMember (field : String) : Member :=
  .mk [] (.named (Word.ofText field)) [.op {} ":", defaultValue]

/-- Adds a default for a field that no member names. The flag is whether a comma ends the list. -/
def addDefault (ms : List Member × Bool) (field : String) : List Member × Bool :=
  if ms.1.any (names field) then ms else (ms.1 ++ [defaultMember field], false)

/-- Completes a struct literal. -/
def literal (s : Completion) (p : Path) (ms : List Member) (trailing : Bool) (rest : List Code) :
    Code :=
  match rest, s.target? p with
  | [], some fields =>
    let (ms, trailing) := fields.foldl addDefault (ms, trailing)
    .structLit p ms trailing []
  | _, _ => .structLit p ms trailing rest

/-- Completes a struct pattern. -/
def pattern (s : Completion) (p : Path) (ms : List Member) (trailing : Bool) (rest : List Code) :
    Code :=
  match rest, s.target? p with
  | [], some fields =>
    if fields.all (fun f => ms.any (names f)) then .structPat p ms trailing []
    else .structPat p ms (!ms.isEmpty) [.op {} ".."]
  | _, _ => .structPat p ms trailing rest

end Completion

mutual

/-- Completes the literals and patterns in a piece of code, the inner ones first. -/
def Code.complete (s : Completion) : Code → Code
  | .tree t => .tree t
  | .op pos text => .op pos text
  | .group pos d parts => .group pos d (Code.completeList s parts)
  | .node shape parts => .node shape (Code.completeList s parts)
  | .angled shape lead members trailing =>
    .angled shape (Code.completeList s lead) (Code.completeList s members) trailing
  | .path p => .path (p.complete s)
  | .attr a => .attr (a.complete s)
  | .structLit p ms trailing rest =>
    s.literal (p.complete s) (Member.completeList s ms) trailing (Code.completeList s rest)
  | .structPat p ms trailing rest =>
    s.pattern (p.complete s) (Member.completeList s ms) trailing (Code.completeList s rest)
  | .fn lead name generics params trailing output tail =>
    .fn (Code.completeList s lead) name (Code.completeList s generics)
      (Param.completeList s params) trailing (Code.completeList s output)
      (Code.completeList s tail)
  | .item i => .item (i.complete s)

/-- Completes a list of pieces. -/
def Code.completeList (s : Completion) : List Code → List Code
  | [] => []
  | c :: cs => c.complete s :: Code.completeList s cs

/-- Completes inside a path. -/
def Path.complete (s : Completion) : Path → Path
  | .named root segments => .named root (Segment.completeList s segments)
  | .qualified parts => .qualified (Code.completeList s parts)

/-- Completes inside a path segment. -/
def Segment.complete (s : Completion) : Segment → Segment
  | .mk name args => .mk name (Code.completeList s args)

/-- Completes inside path segments. -/
def Segment.completeList (s : Completion) : List Segment → List Segment
  | [] => []
  | x :: xs => x.complete s :: Segment.completeList s xs

/-- Completes inside a member. -/
def Member.complete (s : Completion) : Member → Member
  | .mk lead name value => .mk (Code.completeList s lead) name (Code.completeList s value)

/-- Completes inside members. -/
def Member.completeList (s : Completion) : List Member → List Member
  | [] => []
  | m :: ms => m.complete s :: Member.completeList s ms

/-- Completes inside a parameter. -/
def Param.complete (s : Completion) : Param → Param
  | .mk role parts => .mk role (Code.completeList s parts)

/-- Completes inside parameters. -/
def Param.completeList (s : Completion) : List Param → List Param
  | [] => []
  | p :: ps => p.complete s :: Param.completeList s ps

/-- Completes inside an attribute. -/
def Attribute.complete (s : Completion) : Attribute → Attribute
  | .mk inner global path args => .mk inner global path (args.complete s)

/-- Completes inside attributes. -/
def Attribute.completeList (s : Completion) : List Attribute → List Attribute
  | [] => []
  | a :: as => a.complete s :: Attribute.completeList s as

/-- Completes inside the value of an attribute; a token list is not read. -/
def AttributeArgs.complete (s : Completion) : AttributeArgs → AttributeArgs
  | .empty => .empty
  | .list d body => .list d body
  | .value v => .value (v.complete s)

/-- Completes inside a visibility. -/
def Visibility.complete (s : Completion) : Visibility → Visibility
  | .inherited => .inherited
  | .exported => .exported
  | .restricted parts => .restricted (Code.completeList s parts)

/-- Completes inside a field declaration. -/
def FieldDef.complete (s : Completion) : FieldDef → FieldDef
  | .mk attrs vis name ty =>
    .mk (Attribute.completeList s attrs) (vis.complete s) name (ty.complete s)

/-- Completes inside field declarations. -/
def FieldDef.completeList (s : Completion) : List FieldDef → List FieldDef
  | [] => []
  | f :: fs => f.complete s :: FieldDef.completeList s fs

/-- Completes inside a struct body. -/
def StructBody.complete (s : Completion) : StructBody → StructBody
  | .named clause fields trailing =>
    .named (Code.completeList s clause) (FieldDef.completeList s fields) trailing
  | .tuple fields clause => .tuple (fields.complete s) (Code.completeList s clause)
  | .unit clause => .unit (Code.completeList s clause)

/-- Completes inside the trait of an `impl` block. -/
def TraitRef.complete (s : Completion) : TraitRef → TraitRef
  | .inherent => .inherent
  | .of negative path => .of negative (path.complete s)

/-- Completes inside an item. An `impl` block says what `Self` is; modules are not entered. -/
def Item.complete (s : Completion) : Item → Item
  | .struct attrs vis name generics body =>
    .struct (Attribute.completeList s attrs) (vis.complete s) name (Code.completeList s generics)
      (body.complete s)
  | .nominal kind attrs lead name tail =>
    .nominal kind (Attribute.completeList s attrs) (Code.completeList s lead) name
      (Code.completeList s tail)
  | .use attrs vis global tree =>
    .use (Attribute.completeList s attrs) (vis.complete s) global tree
  | .module attrs lead name inner items => .module attrs lead name inner items
  | .impl attrs lead trait selfTy clause inner members =>
    let s' : Completion := { s with selfTy := selfTy.pathText? }
    .impl (Attribute.completeList s' attrs) (Code.completeList s' lead) (trait.complete s')
      (selfTy.complete s') (Code.completeList s' clause) (Attribute.completeList s' inner)
      (Code.completeList s' members)
  | .other .moduleDecl parts => .other .moduleDecl parts
  | .other shape parts => .other shape (Code.completeList s parts)

end

end FieldGraft

import FieldGraft.Source.Grammar
import FieldGraft.Text.Blank
import FieldGraft.Text.Search

/-!
# References to types

An annotation writes the type of its field as text. The text is normalised once (`TypeText`), and is
looked up when the field is made, by a `TypeResolver`. A source unit has a table of names for this:
`TypeTable.resolve` accepts plain paths without generic arguments, takes paths of two segments or
more as qualified, and requires single names to be known.
-/

namespace FieldGraft

/-- The normalised text of a type: words separated by one space, and no space after `::`, nor one
before it if one follows it. -/
structure TypeText where
  text : String
deriving DecidableEq, Repr, Inhabited

/-- Normalises a text. -/
def TypeText.normalise (cs : List Char) : List Char :=
  let spaced := Text.join [' '] (Text.words cs)
  let tight := Text.replace " :: ".toList "::".toList spaced
  Text.replace ":: ".toList "::".toList tight

/-- The type text that a text denotes. -/
def TypeText.ofText (text : String) : TypeText :=
  ⟨String.ofList (normalise text.toList)⟩

/-- The type text of parsed code. -/
def TypeText.ofCode (ty : Code) : TypeText :=
  ofText ty.text

/-- A concrete named type. -/
structure TypeName where
  qualified : String
  simple : String
deriving DecidableEq, Repr, Inhabited

/-- The type with the given qualified name; its simple name is what follows the last `::`. -/
def TypeName.ofQualified (qualified : String) : TypeName where
  qualified
  simple :=
    match Text.afterLastSeparator? qualified.toList with
    | some cs => String.ofList cs
    | none => qualified

/-- A reference to a type: still a text, or already a named type. -/
inductive TypeRef where
  | pending (text : TypeText)
  | resolved (name : TypeName)
deriving DecidableEq, Repr, Inhabited

namespace TypeRef

/-- A pending reference. -/
def ofText (text : String) : TypeRef :=
  .pending (.ofText text)

/-- The named type, if it is known without a lookup; otherwise the text to look up. -/
def element : TypeRef → Except TypeText TypeName
  | pending t => .error t
  | resolved n => .ok n

/-- The reference as shown to the user. -/
def display : TypeRef → String
  | pending t => t.text
  | resolved n => n.qualified

/-- Whether no lookup is needed. -/
def isResolved : TypeRef → Bool
  | pending _ => false
  | resolved _ => true

end TypeRef

/-- Why a type text names no type. -/
inductive ResolveError where
  | notAPath (ty : TypeText)
  | notConcrete (ty : TypeText)
  | unknown (ty : TypeText)
deriving DecidableEq, Repr, Inhabited

/-- The text shown to the user. -/
def ResolveError.message : ResolveError → String
  | notAPath t => s!"type `{t.text}` is not a type path"
  | notConcrete t =>
    s!"type `{t.text}` has generic arguments and is not a concrete named type"
  | unknown t => s!"cannot find type `{t.text}` in this scope"

/-- The names that stand for types without a path. -/
structure TypeTable where
  known : List String := []
deriving DecidableEq, Repr, Inhabited

namespace TypeTable

/-- The primitive types. -/
def primitives : List String :=
  ["bool", "char", "str", "i8", "i16", "i32", "i64", "i128", "isize", "u8", "u16", "u32", "u64",
    "u128", "usize", "f32", "f64"]

/-- The types that are in scope everywhere. -/
def prelude : List String :=
  ["String", "Vec", "Option", "Result", "Box"]

/-- Nothing is known. -/
def empty : TypeTable := {}

/-- Primitive and prelude types. -/
def standard : TypeTable := ⟨primitives ++ prelude⟩

/-- Whether a name is known. -/
def contains (t : TypeTable) (name : String) : Bool :=
  t.known.contains name

/-- Makes a name known. -/
def declare (t : TypeTable) (name : String) : TypeTable :=
  if t.contains name then t else ⟨t.known ++ [name]⟩

/-- Makes all names of a list known. -/
def declareAll (t : TypeTable) (names : List String) : TypeTable :=
  names.foldl declare t

end TypeTable

mutual

/-- The names that an import makes known: each plain name, the new name of each renaming, and
nothing for a glob. -/
def UseTree.bound : UseTree → List String
  | .path _ tail => tail.bound
  | .name w => [w.text]
  | .rename _ shown => [shown.text]
  | .group trees _ => UseTree.boundList trees
  | .glob => []

/-- The names that the imports of a list make known. -/
def UseTree.boundList : List UseTree → List String
  | [] => []
  | t :: ts => t.bound ++ UseTree.boundList ts

end

namespace TypeTable

/-- Makes known what an import brings into scope. -/
def importTree (t : TypeTable) (tree : UseTree) : TypeTable :=
  t.declareAll tree.bound

/-- Looks up the segments of a plain path. -/
def resolveSegments (t : TypeTable) (ty : TypeText) (segments : List Segment) :
    Except ResolveError TypeName :=
  if segments.any (fun s => !s.args.isEmpty) then .error (.notConcrete ty)
  else
    let names := segments.map (fun s => s.name.text)
    match names with
    | [single] =>
      if t.contains single then .ok (.ofQualified single) else .error (.unknown ty)
    | _ => .ok (.ofQualified ("::".intercalate names))

/-- Looks up a type text. -/
def resolve (t : TypeTable) (ty : TypeText) : Except ResolveError TypeName :=
  match typeOfText? ty.text with
  | some (.path (.named _ segments)) => t.resolveSegments ty segments
  | _ => .error (.notAPath ty)

end TypeTable

/-- Whatever can say which type a text names. -/
structure TypeResolver where
  resolve : TypeText → Except ResolveError TypeName

/-- Looks up a reference; a resolved one is taken as it is. -/
def TypeResolver.resolveRef (t : TypeResolver) (ty : TypeRef) : Except ResolveError TypeName :=
  match ty.element with
  | .ok name => .ok name
  | .error text => t.resolve text

/-- A table resolves by its names. -/
def TypeTable.resolver (t : TypeTable) : TypeResolver :=
  ⟨t.resolve⟩

instance : Coe TypeTable TypeResolver := ⟨TypeTable.resolver⟩

/-- Looks up a reference in a table. -/
def TypeTable.resolveRef (t : TypeTable) (ty : TypeRef) : Except ResolveError TypeName :=
  t.resolver.resolveRef ty

end FieldGraft

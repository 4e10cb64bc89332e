import FieldGraft.Arena
import FieldGraft.TypeRef

/-!
# Requests for fields

A request names a field, its type and its modifiers. The name must be an identifier, blanks and
comments around it aside. `Request.synthesize` makes the field.
-/

namespace FieldGraft

/-- Why a name cannot be requested. -/
inductive RequestError where
  | emptyName
  | invalidIdentifier (name : String)
deriving DecidableEq, Repr, Inhabited

/-- The text shown to the user. -/
def RequestError.message : RequestError → String
  | emptyName => "field name must not be empty"
  | invalidIdentifier name => s!"`{name}` is not a valid field identifier"

/-- A request for one field. -/
structure Request where
  name : String
  ty : TypeRef
  modifiers : Modifiers
deriving DecidableEq, Repr, Inhabited

/-- Checks the name of a request. -/
def Request.make (name : String) (ty : TypeRef) (modifiers : Modifiers) :
    Except RequestError Request :=
  if name = "" then .error .emptyName
  else if (identifier? name).isNone then .error (.invalidIdentifier name)
  else .ok { name, ty, modifiers }

/-- Why the field of a request cannot be made. -/
structure SynthesisError where
  field : String
  cause : ResolveError
deriving DecidableEq, Repr, Inhabited

/-- The text shown to the user. -/
def SynthesisError.message (e : SynthesisError) : String :=
  s!"cannot synthesize field `{e.field}`: {e.cause.message}"

/-- Makes the field of a request: its type is the simple name of the requested one. -/
def Request.synthesize (r : Request) (types : TypeResolver) : Except SynthesisError FieldDecl :=
  match types.resolveRef r.ty with
  | .ok ty => .ok { name := r.name, ty := ty.simple, modifiers := r.modifiers, synthetic := true }
  | .error cause => .error ⟨r.name, cause⟩

/-- A type and the fields requested for it, in the order of declaration. -/
structure Target where
  node : NodeId
  requests : List Request
deriving DecidableEq, Repr, Inhabited

end FieldGraft

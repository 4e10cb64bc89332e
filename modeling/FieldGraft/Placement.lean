/-!
# Where a new field goes

A placement decides the position of a synthesized field among the members of its type.
-/

namespace FieldGraft

/-- Where a synthesized field lands in the member list. -/
inductive Placement where
  /-- Always at the head, so the last field processed ends up first. -/
  | prepend
  /-- After the fields synthesized earlier for the same target, before all other members. -/
  | declarationOrder
deriving DecidableEq, Repr, Inhabited

/-- A text that names no placement. -/
structure PlacementError where
  text : String
deriving DecidableEq, Repr

/-- The text shown to the user. -/
def PlacementError.message (e : PlacementError) : String :=
  s!"unknown insertion policy `{e.text}` (expected `prepend` or `declaration-order`)"

namespace Placement

/-- The name used in configuration files, annotations and on the command line. -/
def name : Placement → String
  | prepend => "prepend"
  | declarationOrder => "declaration-order"

/-- Reads a name. -/
def ofName (text : String) : Except PlacementError Placement :=
  if text = "prepend" then .ok prepend
  else if text = "declaration-order" then .ok declarationOrder
  else .error ⟨text⟩

/-- Reading a written name gives the placement back. -/
@[simp] theorem ofName_name (p : Placement) : ofName p.name = .ok p := by
  cases p <;> rfl

/-- The position for the next field of a target that has already received `count` fields. -/
def position (p : Placement) (count : Nat) : Nat :=
  match p with
  | prepend => 0
  | declarationOrder => count

end Placement

end FieldGraft

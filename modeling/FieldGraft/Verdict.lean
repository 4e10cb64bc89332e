import FieldGraft.Diagnostic
import FieldGraft.Text.Escape

/-!
# Whether a field may be added

A field may be added to a struct with named fields that has no field of that name and has a
constructor without parameters. `Arena.evaluate` checks this in that order.
-/

namespace FieldGraft

/-- The outcome for one type and one field name. -/
inductive Verdict where
  | eligible
  | kindNotSupported (target : NodeId) (kind : DeclKind)
  | duplicateField (target existing : NodeId) (field : String)
  | missingConstructor (target : NodeId) (field : String)
deriving DecidableEq, Repr, Inhabited

/-- Decides whether a field of the given name may be added. A node that is no type at all is refused
like a unit struct. -/
def Arena.evaluate (a : Arena) (target : NodeId) (field : String) : Verdict :=
  match a.typeDecl target with
  | .error _ => .kindNotSupported target .unitStruct
  | .ok decl =>
    if decl.kind ≠ .record then .kindNotSupported target decl.kind
    else match (a.fields target).find? (fun f => f.2.name == field) with
      | some (existing, _) => .duplicateField target existing field
      | none =>
        if (a.constructors target).any (fun c => c.2.params == 0) then .eligible
        else .missingConstructor target field

/-- The name of the type at a node; empty if there is none. -/
def Arena.typeName (a : Arena) (id : NodeId) : String :=
  match a.typeDecl id with
  | .ok decl => decl.name
  | .error _ => ""

/-- The log record of a field that may be added. -/
def Arena.eligibleRecord (a : Arena) (target : NodeId) (field : String) : LogRecord :=
  ⟨.debug, .validator, s!"`{field}` is eligible for `{a.typeName target}`"⟩

namespace Verdict

/-- Whether the field may be added. -/
def isEligible : Verdict → Bool
  | eligible => true
  | _ => false

/-- The severity of the diagnostic for a refusal. -/
def severity? : Verdict → Option Severity
  | eligible => none
  | kindNotSupported _ _ => some .warning
  | duplicateField _ _ _ => some .warning
  | missingConstructor _ _ => some .error

/-- The diagnostic for a refusal. -/
def diagnostic? (a : Arena) : Verdict → Option Diagnostic
  | eligible => none
  | kindNotSupported target kind =>
    some (.report .warning (some target)
      (s!"injection is only supported on structs with named fields; no effect on " ++
        s!"{kind.describe} `{a.typeName target}`"))
  | duplicateField _ existing field =>
    some (.report .warning (some existing)
      s!"field `{field}` already exists; no new field is generated")
  | missingConstructor target field =>
    some (.report .error (some target)
      (s!"`{a.typeName target}` needs a zero-argument constructor (`fn new() -> Self`, " ++
        s!"`Default`, or `#[derive(Default)]`) before field `{field}` can be injected"))

/-- The name of a kind in log records. -/
def kindName : DeclKind → String
  | .record => "Class"
  | .tupleStruct => "TupleStruct"
  | .unitStruct => "UnitStruct"
  | .enumeration => "Enum"
  | .union => "Union"
  | .trait => "Trait"

/-- The verdict in log records. -/
def logText : Verdict → String
  | eligible => "Eligible"
  | kindNotSupported target kind =>
    s!"RejectedKindNotSupported \x7b target: {target.display}, kind: {kindName kind} \x7d"
  | duplicateField target existing field =>
    s!"RejectedDuplicateField \x7b target: {target.display}, existing: {existing.display}, " ++
      s!"field: {Text.debug field} \x7d"
  | missingConstructor target field =>
    s!"RejectedMissingNoArgConstructor \x7b target: {target.display}, " ++
      s!"field: {Text.debug field} \x7d"

end Verdict

end FieldGraft

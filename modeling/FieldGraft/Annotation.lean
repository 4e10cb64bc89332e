import FieldGraft.Request
import FieldGraft.Source.Literal

/-!
# Annotations

Fields are requested by the attributes `#[fielder(name = …, ty = …, modifiers = …)]` and
`#[add_fields(field(…), field(…))]`. An attribute that is malformed is one error; a well-formed one
gives one result per field, each checked on its own.

* `readRequests` reads all attributes of an item in order.
* `stripAnnotations` removes the annotations.
-/

namespace FieldGraft

/-- Why an annotation, or one field of it, is refused. -/
inductive AnnotationError where
  | malformed (cause : SyntaxError)
  | missingName
  | missingType
  /-- The modifiers are neither numbers nor keyword texts joined by `|`. -/
  | notModifiers
  | numberTooLarge
  | modifiers (cause : ModifierError)
  | staticField
  | request (cause : RequestError)
deriving DecidableEq, Repr, Inhabited

/-- The text shown to the user. -/
def AnnotationError.message : AnnotationError → String
  | malformed e => e.message
  | missingName => "missing `name = \"...\"`"
  | missingType => "missing `ty = ...`"
  | notModifiers => "expected an integer or a keyword string"
  | numberTooLarge => "number too large to fit in target type"
  | modifiers e => e.message
  | staticField => "`static` fields cannot be expressed as struct fields"
  | request e => e.message

namespace Annotations

/-- The name of the attribute for one field, which is public unless told otherwise. -/
def single : String := "fielder"

/-- The name of the attribute for a list of fields. -/
def multiple : String := "add_fields"

/-- What an annotation says about one field. -/
structure Properties where
  name : Option String := none
  ty : Option TypeText := none
  modifiers : Option Code := none
deriving Inhabited

open FieldGraft.Parser

/-- The path in front of a property; keywords are allowed in it. -/
def propertyPath : Parser (Bool × List Word) := do
  let root ← op? "::"
  let ts ← look
  let first ←
    if Ahead.anyIdent ts then anyIdent
    else if ts.isEmpty then fail "expected nested attribute"
    else if Ahead.literal ts then fail "unexpected literal in nested attribute, expected ident"
    else fail "unexpected token in nested attribute, expected ident"
  let names ← loop [first] fun done => do
    if Ahead.op "::" (← look) then
      let _ ← op "::"
      return ((← anyIdent) :: done, true)
    else return (done, false)
  return (!root.isEmpty, names.reverse)

/-- The path is the single name `s`. -/
def isName (path : Bool × List Word) (s : String) : Bool :=
  match path with
  | (false, [w]) => w.text == s
  | _ => false

/-- Properties separated by commas, of which there must be at least one. -/
def propertyList {σ : Type} (property : σ → Bool × List Word → Parser σ) (start : σ) :
    Parser σ :=
  loop start fun s => do
    let path ← propertyPath
    let s' ← property s path
    if ← atEnd then return (s', false)
    let _ ← op ","
    return (s', !(← atEnd))

/-- A string literal, as its value. -/
def stringLiteral : Parser String := do
  match ← look with
  | .leaf _ (.literal t) :: rest =>
    if Ahead.stringLiteral [.leaf {} (.literal t)] then
      match Literal.stringValue? t with
      | some v => moveTo rest; return v
      | none => fail "expected string literal"
    else fail "expected string literal"
  | _ => fail "expected string literal"

/-- One property of a field. A later value replaces an earlier one. -/
def property (g : Grammar) (p : Properties) (path : Bool × List Word) : Parser Properties := do
  if isName path "name" then
    let _ ← op "="
    return { p with name := some (← stringLiteral) }
  else if isName path "ty" || isName path "type" then
    let _ ← op "="
    if Ahead.stringLiteral (← look) then
      return { p with ty := some (.ofText (← stringLiteral)) }
    else return { p with ty := some (.ofCode (← g.type)) }
  else if isName path "modifiers" || isName path "modifier" then
    let _ ← op "="
    return { p with modifiers := some (← g.expr) }
  else failWith "unsupported property; expected `name`, `ty` or `modifiers`"

/-- One field of a list of fields. -/
def entry (g : Grammar) (done : List Properties) (path : Bool × List Word) :
    Parser (List Properties) := do
  if !isName path "field" then
    failWith "expected `field(name = ..., ty = ..., modifiers = ...)`"
  let (_, p) ← inGroup .paren (propertyList (property g) {})
  return done ++ [p]

mutual

/-- The bits of a modifier expression: numbers and keyword texts joined by `|`. -/
def modifierBits : Code → Except AnnotationError Nat
  | .tree (.leaf _ (.literal t)) =>
    match Literal.integerValue? t with
    | some n => if n < 0x10000000000000000 then .ok n else .error .numberTooLarge
    | none =>
      match Literal.stringValue? t with
      | some words =>
        match Modifiers.ofKeywords words with
        | .ok m => .ok m.bits
        | .error e => .error (.modifiers e)
      | none => .error .notModifiers
  | .node .binary [l, .op _ "|", r] =>
    match modifierBits l with
    | .error e => .error e
    | .ok a =>
      match modifierBits r with
      | .error e => .error e
      | .ok b => .ok (a ||| b)
  | .node .paren [.group _ .paren [e]] => modifierBits e
  | .node .attributed parts => lastModifierBits parts
  | _ => .error .notModifiers

/-- The bits of the last part. -/
def lastModifierBits : List Code → Except AnnotationError Nat
  | [] => .error .notModifiers
  | [c] => modifierBits c
  | _ :: cs => lastModifierBits cs

end

/-- The modifiers of a field, given the ones it has by default. -/
def Properties.readModifiers (p : Properties) (default : Modifiers) :
    Except AnnotationError Modifiers :=
  match p.modifiers with
  | none => .ok default
  | some e =>
    match modifierBits e with
    | .error e => .error e
    | .ok n =>
      match Modifiers.ofBits n with
      | .ok m => .ok m
      | .error e => .error (.modifiers e)

/-- Checks the properties of a field. -/
def Properties.finish (p : Properties) (default : Modifiers) : Except AnnotationError Request :=
  match p.name, p.ty with
  | none, _ => .error .missingName
  | some _, none => .error .missingType
  | some name, some ty =>
    match p.readModifiers default with
    | .error e => .error e
    | .ok m =>
      if m.isStatic then .error .staticField
      else match Request.make name (.pending ty) m with
        | .ok r => .ok r
        | .error e => .error (.request e)

/-- Reads the arguments of an attribute; an empty list is allowed. -/
def readArguments {α : Type} (name : String) (args : AttributeArgs) (none : α)
    (p : Grammar → Parser α) : Except AnnotationError α :=
  let refuse (text : String) : Except AnnotationError α := .error (.malformed ⟨false, text⟩)
  match args with
  | .empty => refuse s!"expected attribute arguments in parentheses: #[{name}(...)]"
  | .value _ => refuse s!"expected parentheses: #[{name}(...)]"
  | .list _ body =>
    if body.isEmpty then .ok none
    else match runAll (p (grammarFor body)) body with
      | .ok a => .ok a
      | .error e => .error (.malformed e)

/-- The requests of one attribute. -/
def read (a : Attribute) : List (Except AnnotationError Request) :=
  match a.ident?, a with
  | some name, .mk _ _ _ args =>
    if name = single then
      match readArguments name args {} (fun g => propertyList (property g) {}) with
      | .ok p => [p.finish Modifiers.publicOnly]
      | .error e => [.error e]
    else if name = multiple then
      match readArguments name args [] (fun g => propertyList (entry g) []) with
      | .ok ps => ps.map (fun p => p.finish Modifiers.none)
      | .error e => [.error e]
    else []
  | none, _ => []

end Annotations

/-- Whether an attribute requests fields. -/
def Attribute.isAnnotation (a : Attribute) : Bool :=
  match a.ident? with
  | some name => name == Annotations.single || name == Annotations.multiple
  | none => false

/-- All requests on an item, in the order of declaration. -/
def readRequests (attrs : List Attribute) : List (Except AnnotationError Request) :=
  attrs.flatMap Annotations.read

/-- The attributes without the annotations. -/
def stripAnnotations (attrs : List Attribute) : List Attribute :=
  attrs.filter (fun a => !a.isAnnotation)

/-- How many annotations there are. -/
def countAnnotations (attrs : List Attribute) : Nat :=
  (attrs.filter Attribute.isAnnotation).length

/-- The last name of a plain path. -/
def Path.lastName? : Path → Option String
  | .named _ segments => segments.getLast?.map (fun s => s.name.text)
  | .qualified _ => none

/-- Whether one of the attributes derives a trait whose path ends in `Default`. A derive list that
is not a list of paths derives nothing. -/
def derivesDefault (attrs : List Attribute) : Bool :=
  attrs.any fun a =>
    match a.ident?, a with
    | some "derive", .mk _ _ _ (.list _ body) =>
      match Parser.runAll (Parser.terminated ((grammarFor body).namedPath false)) body with
      | .ok (paths, _) => paths.any (fun p => p.lastName? == some "Default")
      | .error _ => false
    | _, _ => false

end FieldGraft

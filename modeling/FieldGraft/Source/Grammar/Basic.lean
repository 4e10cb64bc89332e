import FieldGraft.Source.Parser

/-!
# Grammar: goals, attributes and blocks

The grammar is a function from goals to parsers. Each production is written against an arbitrary
grammar `g` for the constructs nested in it, and `FieldGraft.Source.Grammar` ties the knot with a
bound on the nesting. So every production is a plain definition of its own.
-/

namespace FieldGraft

/-- How tightly an operator binds, from the loosest on. -/
inductive Precedence where
  | jump | assign | range | disjunction | conjunction | letBinding | compare | bitOr | bitXor
  | bitAnd | shift | sum | product | cast
deriving DecidableEq, Repr, Inhabited

namespace Precedence

/-- The rank of a precedence; a higher rank binds tighter. -/
def rank : Precedence → Nat
  | jump => 0 | assign => 1 | range => 2 | disjunction => 3 | conjunction => 4 | letBinding => 5
  | compare => 6 | bitOr => 7 | bitXor => 8 | bitAnd => 9 | shift => 10 | sum => 11
  | product => 12 | cast => 13

end Precedence

/-- Where a bound stands, which decides what it may be besides a lifetime or a trait. -/
inductive BoundPlace where
  /-- On a parameter, a trait or an associated type, or in a clause: traits may be marked `const`.
  -/
  | declaration
  /-- In an object type. -/
  | objectType
  /-- In an `impl` type: traits may be marked `const`, and captures may be listed. -/
  | implType
deriving DecidableEq, Repr, Inhabited

/-- The constructs that can be nested in one another. -/
inductive Goal where
  /-- An expression; a brace after a path starts a struct literal iff `structs`. -/
  | expr (structs : Bool)
  /-- An expression without binary operators. -/
  | operand (structs : Bool)
  /-- The operators from precedence `base` on that follow `lhs`. -/
  | operators (structs : Bool) (base : Precedence) (lhs : Code)
  /-- An expression that a statement or match arm may end early. -/
  | stmtExpr
  /-- A type; a `+` after it belongs to it iff `plus`. -/
  | type (plus : Bool)
  /-- A pattern without alternatives. -/
  | pattern
  /-- A lifetime, a trait or a capture list, as a bound. -/
  | bound (place : BoundPlace)
  /-- Named fields in braces. -/
  | fields
  | item
  | stmt
deriving Inhabited

/-- How to read each construct. -/
abbrev Grammar := Goal → Parser Code

namespace Grammar

open FieldGraft.Parser

variable (g : Grammar)

/-- An expression in which struct literals are allowed. -/
def expr : Parser Code := g (.expr true)

/-- A type that may go on with `+`. -/
def type : Parser Code := g (.type true)

/-! ### Attributes -/

/-- Names separated by `::`, without generic arguments; keywords heading paths are allowed. -/
def plainPath : Parser (Bool × List Word) := do
  let root ← op? "::"
  let names ← loop ([] : List Word) fun done => do
    let ts ← look
    if !(Ahead.ident ts || Ahead.keywords ["super", "self", "Self", "crate"] ts) then
      if done.isEmpty then
        let _ ← ident
        return (done, false)
      else fail "expected path segment after `::`"
    else
      let w ← anyIdent
      if Ahead.op "::" (← look) then
        let _ ← op "::"
        return (w :: done, true)
      else return (w :: done, false)
  return (!root.isEmpty, names.reverse)

/-- What an attribute holds between its brackets. -/
def attributeBody (inner : Bool) : Parser Attribute := do
  let (global, path) ←
    if Ahead.keyword "unsafe" (← look) then
      let w ← anyIdent
      pure (false, [w])
    else plainPath
  match ← look with
  | .group _ d body :: rest =>
    moveTo rest
    return .mk inner global path (.list d body)
  | ts =>
    if Ahead.op "=" ts then
      let _ ← op "="
      let ts ← look
      let short := match ts with
        | [_] => Ahead.literal ts
        | [_, _] => Ahead.op "-" ts && Ahead.literal ts
        | _ => false
      if short then
        return .mk inner global path (.value (.node .literal (← literal)))
      else if Ahead.op "#" ts && Ahead.group .bracket (ts.drop 1) then
        fail "unexpected attribute inside of attribute"
      else return .mk inner global path (.value (← g.expr))
    else return .mk inner global path .empty

/-- An outer attribute. -/
def outerAttribute : Parser Attribute := do
  let _ ← op "#"
  let (_, a) ← inGroup .bracket (g.attributeBody false)
  return a

/-- The outer attributes here. -/
def outerAttributes : Parser (List Attribute) := do
  let read ← loop ([] : List Attribute) fun done => do
    if Ahead.op "#" (← look) then return (← g.outerAttribute) :: done |> (·, true)
    else return (done, false)
  return read.reverse

/-- The inner attributes here. -/
def innerAttributes : Parser (List Attribute) := do
  let read ← loop ([] : List Attribute) fun done => do
    let ts ← look
    if Ahead.op "#" ts && Ahead.op "!" (ts.drop 1) then
      let _ ← op "#"
      let _ ← op "!"
      let (_, a) ← inGroup .bracket (g.attributeBody true)
      return (a :: done, true)
    else return (done, false)
  return read.reverse

/-- Outer attributes as code. -/
def outerAttributeCode : Parser (List Code) := do
  return (← g.outerAttributes).map Code.attr

/-- Inner attributes as code. -/
def innerAttributeCode : Parser (List Code) := do
  return (← g.innerAttributes).map Code.attr

/-- Puts attributes in front of a construct and of those it has. -/
def attributed (attrs : List Code) (c : Code) : Code :=
  if attrs.isEmpty then c
  else match c with
    | .node .attributed parts => .node .attributed (attrs ++ parts)
    | _ => .node .attributed (attrs ++ [c])

/-- What was read since `start`, as the tokens that were written. -/
def verbatimSince (start : List TokenTree) : Parser Code := do
  return .node .verbatim ((← readSince start).map Code.tree)

/-! ### Blocks -/

/-- Whether the last token of a piece of code is a brace group. -/
def endsWithBrace (c : Code) : Bool :=
  match c.trees.getLast? with
  | some (.group _ .brace _) => true
  | _ => false

/-- Whether an expression needs a semicolon to be a statement. -/
def needsSemicolon (c : Code) : Bool :=
  match c.shape? with
  | some .macroCall => !endsWithBrace c
  | _ => !c.closesItself

/-- Whether another statement may follow this one directly. -/
def endsStatement : Code → Bool
  | .node .exprStmt [e] => !needsSemicolon e
  | _ => true

/-- The statements of a block. -/
def statements : Parser (List Code) := do
  let read ← loop ([] : List Code) fun done => do
    if Ahead.op ";" (← look) then
      let semi ← op ";"
      return (.node .emptyStmt [semi] :: done, true)
    if ← atEnd then return (done, false)
    let s ← g .stmt
    if ← atEnd then return (s :: done, false)
    if endsStatement s then return (s :: done, true)
    fail "unexpected token, expected `;`"
  return read.reverse

/-- A block in braces; inner attributes are allowed iff `inner`. -/
def block (inner : Bool) : Parser Code :=
  groupOf .brace do
    let attrs ← if inner then g.innerAttributeCode else pure []
    return attrs ++ (← g.statements)

/-- A block as an expression. -/
def blockExpr : Parser Code := do
  return .node .block [← g.block true]

end Grammar

end FieldGraft

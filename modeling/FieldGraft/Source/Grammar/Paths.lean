import FieldGraft.Source.Grammar.Basic

/-!
# Grammar: generic lists, paths and bounds

A path segment may carry generic arguments in angle brackets or, in a bound, in parentheses. Bounds
are lifetimes and traits separated by `+`; where a bound stands decides what else it may be.
-/

namespace FieldGraft.Grammar

open FieldGraft.Parser

variable (g : Grammar)

/-! ### Lists in angle brackets -/

/-- Members up to `>`, separated by commas, and whether a comma ends them. -/
def angledMembers (p : Parser Code) : Parser (List Code × Bool) := do
  let (read, trailing) ← loop (([] : List Code), false) fun (done, trailing) => do
    if Ahead.op ">" (← look) then return ((done, trailing), false)
    let a ← p
    if Ahead.op ">" (← look) then return ((a :: done, false), false)
    let _ ← op ","
    return ((a :: done, true), true)
  return (read.reverse, trailing)

/-- A list in angle brackets behind `lead`. -/
def angledList (shape : Shape) (lead : List Code) (p : Parser Code) : Parser Code := do
  let _ ← op "<"
  let (members, trailing) ← angledMembers p
  let _ ← op ">"
  return .angled shape lead members trailing

/-- Whether `<` starts generic parameters rather than a qualified path. -/
def startsGenerics (ts : List TokenTree) : Bool :=
  let second := ts.drop 1
  let third := ts.drop 2
  Ahead.op "<" ts && (Ahead.op ">" second || Ahead.op "#" second ||
    ((Ahead.lifetime second || Ahead.ident second) &&
      (Ahead.op ">" third || Ahead.op "," third || (Ahead.op ":" third && !Ahead.op "::" third) ||
        Ahead.op "=" third)) ||
    Ahead.keyword "const" second)

/-- Bounds separated by `+`, up to where `stop` holds. -/
def boundsUntil (bound : Parser Code) (stop : List TokenTree → Bool) : Parser (List Code) := do
  let read ← loop ([] : List Code) fun done => do
    if stop (← look) then return (done, false)
    let b ← bound
    if stop (← look) then return (b :: done, false)
    if Ahead.op "+" (← look) then
      let plus ← op "+"
      return (plus :: b :: done, true)
    else return (b :: done, false)
  return read.reverse

/-- A colon with the bounds behind it. Without bounds the colon says nothing and is dropped. -/
def colonBounds? (bound : Parser Code) (stop : List TokenTree → Bool) : Parser (List Code) := do
  if !Ahead.op ":" (← look) then return []
  let colon ← op ":"
  let bounds ← boundsUntil bound stop
  return if bounds.isEmpty then [] else colon :: bounds

/-- A literal, a name or a block, as a constant argument. -/
def constArgument : Parser Code := do
  let ts ← look
  if Ahead.literal ts then return .node .literal (← literal)
  else if Ahead.ident ts then return .path (.named none [.mk (← ident) []])
  else if Ahead.group .brace ts then g.blockExpr
  else fail "expected one of: literal, identifier, curly braces"

/-- One generic parameter; `_` may take the place of a type parameter iff `hole`. -/
def genericParam (hole : Bool) : Parser Code := do
  let attrs ← g.outerAttributeCode
  let ts ← look
  let param (parts : List Code) : Code := .node .typeParam (attrs ++ parts)
  if Ahead.lifetime ts then
    let l ← lifetime
    let bs ← colonBounds? lifetime (fun ts => Ahead.op "," ts || Ahead.op ">" ts)
    return param (l :: bs)
  else if Ahead.keyword "const" ts then
    let kw ← keyword "const"
    let name ← ident
    let colon ← op ":"
    let ty ← g.type
    let default ← if Ahead.op "=" (← look) then do
        let eq ← op "="
        pure [eq, ← g.constArgument]
      else pure []
    return param (kw :: word name :: colon :: ty :: default)
  else if hole && Ahead.keyword "_" ts then
    return param [word (← anyIdent)]
  else
    let name ← ident
    let bs ← colonBounds? (g (.bound .declaration))
      (fun ts => Ahead.op "," ts || Ahead.op ">" ts || Ahead.op "=" ts)
    let default ← if Ahead.op "=" (← look) then do
        let eq ← op "="
        pure [eq, ← g.type]
      else pure []
    return param (word name :: bs ++ default)

/-- A list of generic parameters, if one is here. -/
def generics? : Parser (List Code) := do
  if !Ahead.op "<" (← look) then return []
  return [← angledList .generics [] (g.genericParam true)]

/-- The parameters bound by `for`, if there are any. -/
def binder? : Parser (List Code) := do
  if !Ahead.keyword "for" (← look) then return []
  let kw ← keyword "for"
  return [← angledList .binder [kw] (g.genericParam false)]

/-- A return type, if there is one. -/
def returnType (plus : Bool) : Parser (List Code) := do
  if Ahead.op "->" (← look) then
    let arrow ← op "->"
    return [arrow, ← g (.type plus)]
  else return []

/-- Parenthesised arguments as in `Fn(A) -> B`. -/
def parenArgs : Parser Code := do
  let args ← groupOf .paren (terminatedCode g.type)
  let out ← g.returnType false
  return .node .parenArgs (args :: out)

/-! ### Generic arguments -/

/-- Whether a type can name an associated item: a plain path of one segment, without parenthesised
arguments. -/
def isAssociatedName : Code → Bool
  | .path (.named none [.mk _ []]) => true
  | .path (.named none [.mk _ [.angled _ _ _ _]]) => true
  | _ => false

/-- One generic argument. -/
def genericArgument : Parser Code := do
  let ts ← look
  let isConst (ts : List TokenTree) : Bool := Ahead.literal ts || Ahead.group .brace ts
  if Ahead.lifetime ts && !Ahead.op "+" (ts.drop 1) then lifetime
  else if isConst ts then g.constArgument
  else
    let argument ← g.type
    if !isAssociatedName argument then return argument
    let ts ← look
    if Ahead.op "=" ts then
      let eq ← op "="
      let value ← if isConst (← look) then g.constArgument else g.type
      return .node .assocBinding [argument, eq, value]
    else if Ahead.op ":" ts then
      let colon ← op ":"
      let bounds ← boundsUntil (g (.bound .declaration))
        (fun ts => Ahead.op "," ts || Ahead.op ">" ts)
      return .node .assocBinding (argument :: colon :: bounds)
    else return argument

/-- Generic arguments, with the `::` that may precede them. -/
def genericArgs : Parser Code := do
  let colons ← op? "::"
  angledList .genericArgs colons g.genericArgument

/-! ### Paths -/

/-- One segment of a path. In expression style generic arguments need a `::` before them. -/
def segment (exprStyle : Bool) : Parser Segment := do
  let ts ← look
  if Ahead.keywords ["super", "self", "crate", "try"] ts then return .mk (← anyIdent) []
  let name ← if Ahead.keyword "Self" ts then anyIdent else ident
  let ts ← look
  if (!exprStyle && Ahead.op "<" ts && !Ahead.op "<=" ts && !Ahead.op "<<=" ts) ||
      (Ahead.op "::" ts && Ahead.op "<" (ts.drop 2)) then
    return .mk name [← g.genericArgs]
  else return .mk name []

/-- The segments from a first one on, up to parenthesised arguments. -/
def moreSegments (exprStyle : Bool) (first : Segment) : Parser (List Segment) := do
  let read ← loop [first] fun done => do
    let ts ← look
    if Ahead.op "::" ts && !Ahead.group .paren (ts.drop 2) then
      let _ ← op "::"
      return ((← g.segment exprStyle) :: done, true)
    else return (done, false)
  return read.reverse

/-- A path without a qualified self type. -/
def namedPath (exprStyle : Bool) : Parser Path := do
  let root ← op? "::"
  let first ← g.segment exprStyle
  return .named (root.head?.map Code.pos) (← g.moreSegments exprStyle first)

/-- A path of either kind. -/
def anyPath (exprStyle : Bool) : Parser Path := do
  if Ahead.op "<" (← look) then
    let lt ← op "<"
    let self ← g.type
    let trait ← if Ahead.keyword "as" (← look) then do
        let as ← keyword "as"
        pure [as, .path (← g.namedPath false)]
      else pure []
    let gt ← op ">"
    let colons ← op "::"
    let first ← g.segment exprStyle
    let rest ← loop [first] fun done => do
      if Ahead.op "::" (← look) then
        let _ ← op "::"
        return ((← g.segment exprStyle) :: done, true)
      else return (done, false)
    return .qualified (lt :: self :: trait ++ [gt, colons, .path (.named none rest.reverse)])
  else g.namedPath exprStyle

/-- A path that could name a macro: plain, and without generic arguments. -/
def isPlain : Path → Bool
  | .named _ segments => segments.all (fun s => s.args.isEmpty)
  | .qualified _ => false

/-- Whether parenthesised arguments may follow a path: empty angle brackets count as none. -/
def takesArgs (p : Path) : Bool :=
  match p.segments.getLast? with
  | some (.mk _ []) => true
  | some (.mk _ [.angled _ _ [] _]) => true
  | _ => false

/-- Puts arguments on the last segment of a path. -/
def withLastArgs (args : List Code) (p : Path) : Path :=
  match p.segments.getLast? with
  | some (.mk name _) => p.withSegments (p.segments.dropLast ++ [.mk name args])
  | none => p

/-- Parenthesised arguments start here, perhaps behind `::`. -/
def parenArgsAhead (ts : List TokenTree) : Bool :=
  Ahead.group .paren ts || Ahead.op "::" ts && Ahead.group .paren (ts.drop 2)

/-- A path that names a trait. Its last segment may have parenthesised arguments. -/
def traitPath : Parser Path := do
  let path ← g.namedPath false
  if takesArgs path && parenArgsAhead (← look) then
    let _ ← op? "::"
    return withLastArgs [← g.parenArgs] path
  else return path

/-! ### Bounds -/

/-- A trait as a bound, without the parentheses it may stand in, and whether it is marked `const`.
-/
def traitBound (constAllowed : Bool) : Parser (List Code × Bool) := do
  let binder ← g.binder?
  let ts ← look
  let isConst ← if Ahead.group .bracket ts then do
      let _ ← inGroup .bracket (keyword "const")
      if !constAllowed then failWith "`[const]` is not allowed here"
      pure true
    else if Ahead.keyword "const" ts then do
      let _ ← keyword "const"
      if !constAllowed then failWith "`const` is not allowed here"
      pure true
    else pure false
  let maybe ← op? "?"
  let late ← if binder.isEmpty && !maybe.isEmpty then g.binder? else pure []
  let path ← g.traitPath
  if !maybe.isEmpty && !(binder ++ late).isEmpty then
    failWith "`for<...>` binder not allowed with `?` trait polarity modifier"
  return (binder ++ maybe ++ [.path path], isConst)

/-- A capture list `use<…>`. -/
def captureList : Parser Code := do
  let use ← keyword "use"
  angledList .captureList [use] do
    let ts ← look
    if Ahead.lifetime ts then lifetime
    else if Ahead.keyword "Self" ts then return word (← anyIdent)
    else return word (← ident)

/-- A bound. One that is marked `const` is kept as written. -/
def bound (place : BoundPlace) : Parser Code := do
  let ts ← look
  if Ahead.lifetime ts then lifetime
  else if Ahead.keyword "use" ts then
    let captures ← captureList
    if place != .implType then
      failWith "`use<...>` precise capturing syntax is not allowed here"
    return captures
  else
    let trait := g.traitBound (place != .objectType)
    let (parts, isConst) ← if Ahead.group .paren ts then do
        let (pos, parts, isConst) ← inGroup .paren trait
        pure ([.group pos .paren parts], isConst)
      else trait
    if isConst then verbatimSince ts else return .node .traitBound parts

/-- Whether another bound can follow a `+`. -/
def boundStart (place : BoundPlace) (ts : List TokenTree) : Bool :=
  Ahead.anyIdent ts || Ahead.op "::" ts || Ahead.op "?" ts || Ahead.lifetime ts ||
    Ahead.group .paren ts || (place != .objectType && Ahead.group .bracket ts)

/-- One bound or more, separated by `+` if `plus`. -/
def bounds (place : BoundPlace) (plus : Bool) : Parser (List Code) := do
  let read ← loop ([] : List Code) fun done => do
    let b ← g (.bound place)
    if plus && Ahead.op "+" (← look) then
      let p ← op "+"
      return (p :: b :: done, boundStart place (← look))
    else return (b :: done, false)
  return read.reverse

/-- Whether some bound is a trait. -/
def hasTrait (bs : List Code) : Bool :=
  bs.any fun b => match b with
    | .node .traitBound _ => true
    | .node .verbatim _ => true
    | _ => false

end FieldGraft.Grammar

import FieldGraft.Source.Grammar.Paths

/-!
# Grammar: types

`typeRule` reads a type. A plain path is kept as `Code.path`, which is all that type resolution
looks at; the other types are nodes.
-/

namespace FieldGraft.Grammar

open FieldGraft.Parser

variable (g : Grammar)

/-- What may start a type, as the error text lists it. -/
def typeStarts : String :=
  "expected one of: `for`, parentheses, `fn`, `unsafe`, `extern`, identifier, `::`, `<`, `dyn`, " ++
    "square brackets, `*`, `&`, `!`, `impl`, `_`, lifetime"

/-! ### Function types -/

/-- An `extern` mark with its optional name. -/
def abi? : Parser (List Code) := do
  if Ahead.keyword "extern" (← look) then
    let kw ← keyword "extern"
    match ← look with
    | t@(.leaf _ (.literal _)) :: rest =>
      if Ahead.stringLiteral [t] then
        moveTo rest
        return [kw, .tree t]
      else return [kw]
    | _ => return [kw]
  else return []

/-- A parameter of a function type. A first one may be `self`, and is kept as written if that is
mutable. -/
def bareParam (isFirst : Bool) : Parser Code := do
  let start ← look
  let mutSelf (ts : List TokenTree) : Bool :=
    isFirst && Ahead.keyword "mut" ts && Ahead.keyword "self" (ts.drop 1)
  let isMut := mutSelf start
  if isMut then
    let _ ← keyword "mut"
  let ts ← look
  let isSelf := isFirst && Ahead.keyword "self" ts
  let isNamed := (Ahead.ident ts || Ahead.keyword "_" ts || isSelf) && Ahead.op ":" (ts.drop 1) &&
    !Ahead.op "::" (ts.drop 1)
  let name ← if isNamed then do
      let w ← anyIdent
      let colon ← op ":"
      pure [word w, colon]
    else pure []
  if mutSelf (← look) && !(isSelf && isNamed) then
    let _ ← keyword "mut"
    let _ ← keyword "self"
    verbatimSince start
  else if isMut && !isNamed then
    let _ ← keyword "self"
    verbatimSince start
  else
    let ty ← g.type
    if isMut then verbatimSince start
    else if name.isEmpty then return ty
    else return .node .typedPat (name ++ [ty])

/-- A trailing `...` starts here, perhaps behind a name. -/
def variadicAhead (ts : List TokenTree) : Bool :=
  Ahead.op "..." ts ||
    ((Ahead.ident ts || Ahead.keyword "_" ts) && Ahead.op ":" (ts.drop 1) &&
      Ahead.op "..." (ts.drop 2))

/-- A trailing `...` of a function type. -/
def bareVariadic (attrs : List Code) : Parser Code := do
  let name ← if Ahead.op "..." (← look) then pure [] else do
      let w ← anyIdent
      let colon ← op ":"
      pure [word w, colon]
  return .node .variadicParam (attrs ++ name ++ [← op "..."])

/-- The parameters of a function type; nothing may follow a trailing `...` but a comma. -/
def bareParams : Parser (List Code) := do
  let read ← loop ([] : List Code) fun done => do
    if ← atEnd then return (done, false)
    let attrs ← g.outerAttributeCode
    if variadicAhead (← look) then
      let v ← bareVariadic attrs
      return ((← op? ",") ++ v :: done, false)
    let p := attributed attrs (← g.bareParam done.isEmpty)
    if ← atEnd then return (p :: done, false)
    let comma ← op ","
    return (comma :: p :: done, true)
  return read.reverse

/-- A function type. -/
def bareFn (binder : List Code) : Parser Code := do
  let safety ← keyword? "unsafe"
  let abi ← abi?
  let kw ← keyword "fn"
  let params ← groupOf .paren g.bareParams
  let out ← g.returnType false
  return .node .bareFn (binder ++ safety ++ abi ++ [kw, params] ++ out)

/-! ### Types in parentheses -/

/-- The types of a tuple after the first, with their commas. -/
def tupleTail : Parser (List Code) := do
  let read ← loop ([] : List Code) fun done => do
    if ← atEnd then return (done, false)
    let comma ← op ","
    if ← atEnd then return (comma :: done, false)
    return ((← g.type) :: comma :: done, true)
  return read.reverse

/-- The bounds of an object type. One of them has to be a trait. -/
def objectBounds (plus : Bool) : Parser (List Code) := do
  let bs ← g.bounds .objectType plus
  if !hasTrait bs then failWith "at least one trait is required for an object type"
  return bs

/-- What the parentheses of a type hold. -/
inductive ParenContent where
  | unit
  | object (bounds : List Code)
  | maybe (bound : List Code)
  | tuple (parts : List Code)
  | single (ty : Code)

/-- Reads the content of parentheses in a type. -/
def parenContent : Parser ParenContent := do
  if ← atEnd then return .unit
  let ts ← look
  if Ahead.lifetime ts then return .object (← g.objectBounds true)
  if Ahead.op "?" ts then return .maybe (← g.traitBound false).1
  let first ← g.type
  if Ahead.op "," (← look) then return .tuple (first :: (← g.tupleTail))
  return .single first

/-- The bound that a type in parentheses is if a `+` follows. -/
def asBound? (pos : Position) : Code → Option Code
  | .path (.named root segments) =>
    some (.node .traitBound [.group pos .paren [.path (.named root segments)]])
  | .node .traitObject [.node .traitBound [.group _ .paren parts]] =>
    some (.node .traitBound [.group pos .paren parts])
  | .node .traitObject [.node .traitBound parts] =>
    some (.node .traitBound [.group pos .paren parts])
  | _ => none

/-- Bounds that follow a first one, each behind a `+`. The last `+` may stand alone iff `loose`. -/
def plusBounds (loose : Bool) (first : Code) : Parser (List Code) := do
  let read ← loop [first] fun done => do
    if Ahead.op "+" (← look) then
      let plus ← op "+"
      if loose && !boundStart .objectType (← look) then return (plus :: done, false)
      else return ((← g (.bound .objectType)) :: plus :: done, true)
    else return (done, false)
  return read.reverse

/-- A type in parentheses, a tuple, or bounds starting with a parenthesised one. -/
def parenType (plus : Bool) : Parser Code := do
  let (pos, content) ← inGroup .paren g.parenContent
  let paren (parts : List Code) : Code := .group pos .paren parts
  match content with
  | .unit => return .node .tupleType [paren []]
  | .object bs => return .node .parenType [paren [.node .traitObject bs]]
  | .maybe b => return .node .traitObject (← g.plusBounds false (.node .traitBound [paren b]))
  | .tuple parts => return .node .tupleType [paren parts]
  | .single ty =>
    match if plus && Ahead.op "+" (← look) then asBound? pos ty else none with
    | some first => return .node .traitObject (← g.plusBounds false first)
    | none => return .node .parenType [paren [ty]]

/-! ### Types -/

/-- A type that starts with a path: the path, a macro call, or bounds. -/
def pathType (plus : Bool) (binder : List Code) : Parser Code := do
  let path ← g.anyPath false
  let ts ← look
  match path with
  | .qualified _ => return .path path
  | .named _ _ =>
    if Ahead.op "!" ts && !Ahead.op "!=" ts && isPlain path then
      let bang ← op "!"
      let (_, body) ← rawGroup
      return .node .macroCall [.path path, bang, body]
    else if !binder.isEmpty || plus && Ahead.op "+" ts then
      let first : Code := .node .traitBound (binder ++ [.path path])
      if plus then return .node .traitObject (← g.plusBounds true first)
      else return .node .traitObject [first]
    else return .path path

/-- A built-in form `builtin # name(…)`, kept as written. -/
def builtinForm : Parser Code := do
  let start ← look
  let _ ← keyword "builtin"
  let _ ← op "#"
  let _ ← ident
  let (d, _) ← rawGroup
  if d != .paren then failWith "expected parentheses"
  verbatimSince start

/-- A built-in form starts here. -/
def builtinAhead (ts : List TokenTree) : Bool :=
  Ahead.keyword "builtin" ts && Ahead.op "#" (ts.drop 1)

/-- A type. -/
def typeRule (plus : Bool) : Parser Code := do
  let start ← look
  let binder ← g.binder?
  let ts ← look
  if !binder.isEmpty && !(Ahead.ident ts ||
      Ahead.keywords ["fn", "unsafe", "extern", "super", "self", "Self", "crate"] ts) then
    fail "expected one of: identifier, `fn`, `unsafe`, `extern`, `super`, `self`, `Self`, `crate`"
  else if Ahead.group .paren ts then g.parenType plus
  else if Ahead.keywords ["fn", "unsafe", "extern"] ts then g.bareFn binder
  else if builtinAhead ts then builtinForm
  else if Ahead.pathStart ts || Ahead.op "<" ts then g.pathType plus binder
  else if Ahead.keyword "dyn" ts then
    let kw ← keyword "dyn"
    let star ← op? "*"
    let bs ← g.objectBounds plus
    if star.isEmpty then return .node .traitObject (kw :: bs) else verbatimSince start
  else if Ahead.group .bracket ts then
    let (pos, elem, len) ← inGroup .bracket do
      let elem ← g.type
      if Ahead.op ";" (← look) then
        let semi ← op ";"
        return (elem, [semi, ← g.expr])
      else return (elem, [])
    let shape : Shape := if len.isEmpty then .sliceType else .arrayType
    return .node shape [.group pos .bracket (elem :: len)]
  else if Ahead.op "*" ts then
    let star ← op "*"
    let ts ← look
    let kw ← if Ahead.keyword "const" ts then keyword "const"
      else if Ahead.keyword "mut" ts then keyword "mut"
      else fail "expected `const` or `mut`"
    return .node .pointerType [star, kw, ← g (.type false)]
  else if Ahead.op "&" ts then
    let amp ← op "&"
    let life ← lifetime?
    let mutability ← keyword? "mut"
    return .node .referenceType (amp :: life ++ mutability ++ [← g (.type false)])
  else if Ahead.op "!" ts then return .node .neverType [← op "!"]
  else if Ahead.keyword "impl" ts then
    let kw ← keyword "impl"
    let bs ← g.bounds .implType plus
    if !hasTrait bs then failWith "at least one trait must be specified"
    return .node .implTrait (kw :: bs)
  else if Ahead.keyword "_" ts then return .node .inferType [← keyword "_"]
  else if Ahead.lifetime ts then return .node .traitObject (← g.objectBounds plus)
  else fail typeStarts

/-! ### Clauses -/

/-- Where the list of predicates ends. -/
def clauseEnd (ts : List TokenTree) : Bool :=
  ts.isEmpty || Ahead.group .brace ts || Ahead.op "," ts || Ahead.op ";" ts ||
    (Ahead.op ":" ts && !Ahead.op "::" ts) || Ahead.op "=" ts

/-- One predicate of a `where` clause. -/
def wherePredicate : Parser Code := do
  let ts ← look
  if Ahead.lifetime ts && Ahead.op ":" (ts.drop 1) then
    let l ← lifetime
    let colon ← op ":"
    let bs ← boundsUntil lifetime clauseEnd
    return .node .wherePredicate (l :: colon :: bs)
  else
    let binder ← g.binder?
    let ty ← g.type
    let colon ← op ":"
    let bs ← boundsUntil (g (.bound .declaration)) clauseEnd
    return .node .wherePredicate (binder ++ ty :: colon :: bs)

/-- A `where` clause, if one is here. The word alone says nothing and leaves an empty clause. -/
def whereClause? : Parser (List Code) := do
  if !Ahead.keyword "where" (← look) then return []
  let kw ← keyword "where"
  if startsGenerics (← look) then
    failWith "generic parameters on `where` clauses are reserved for future use"
  let predicates ← loop ([] : List Code) fun done => do
    if clauseEnd (← look) then return (done, false)
    let p ← g.wherePredicate
    if Ahead.op "," (← look) then
      let comma ← op ","
      return (comma :: p :: done, true)
    else return (p :: done, false)
  let parts := if predicates.isEmpty then [] else kw :: predicates.reverse
  return [.node .whereClause parts]

end FieldGraft.Grammar

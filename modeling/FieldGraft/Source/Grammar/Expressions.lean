import FieldGraft.Source.Grammar.Patterns

/-!
# Grammar: expressions and statements

Binary operators are read by precedence climbing: `operandRule` reads an operand, `operatorsRule`
the operators after it. `stmtExprRule` reads an expression that may end a statement early: after a
block-like expression nothing but `.` and `?` continues it.
-/

namespace FieldGraft.Grammar

open FieldGraft.Parser

variable (g : Grammar)

/-! ### Operators -/

/-- The binary operators, longest first where one starts with another. -/
def binaryOperators : List (String × Precedence) :=
  [("+=", .assign), ("-=", .assign), ("*=", .assign), ("/=", .assign), ("%=", .assign),
    ("^=", .assign), ("&=", .assign), ("|=", .assign), ("<<=", .assign), (">>=", .assign),
    ("&&", .conjunction), ("||", .disjunction), ("<<", .shift), (">>", .shift),
    ("==", .compare), ("<=", .compare), ("!=", .compare), (">=", .compare), ("+", .sum),
    ("-", .sum), ("*", .product), ("/", .product), ("%", .product), ("^", .bitXor),
    ("&", .bitAnd), ("|", .bitOr), ("<", .compare), (">", .compare)]

/-- The binary operator at the front. -/
def binaryOperator? (ts : List TokenTree) : Option (String × Precedence) :=
  binaryOperators.find? (fun o => Ahead.op o.1 ts)

/-- An assignment sign stands at the front. -/
def assigns (ts : List TokenTree) : Bool :=
  Ahead.op "=" ts && !Ahead.op "=>" ts

/-- How tightly the operator at the front binds; `jump` if there is none. -/
def precedenceAhead (ts : List TokenTree) : Precedence :=
  match binaryOperator? ts with
  | some (_, p) => p
  | none =>
    if assigns ts then .assign
    else if Ahead.op ".." ts then .range
    else if Ahead.keyword "as" ts then .cast
    else .jump

/-- Whether an expression is a comparison. -/
def isComparison : Code → Bool
  | .node .binary [_, .op _ s, _] =>
    binaryOperators.any (fun o => o.1 == s && o.2 == Precedence.compare)
  | _ => false

/-- Whether an expression is a range. -/
def isRange (c : Code) : Bool :=
  c.shape? == some .range

/-- The right-hand side of an operator: an operand and whatever binds tighter. -/
def rightHandSide (structs : Bool) (p : Precedence) : Parser Code := do
  let first ← g (.operand structs)
  loop first fun rhs => do
    let ts ← look
    let next := precedenceAhead ts
    if p.rank < next.rank || next == p && p == .assign then
      let rhs' ← g (.operators structs next rhs)
      return (rhs', (← look).length < ts.length)
    else return (rhs, false)

/-- Operators that cannot start an operand, so that a range before them has no end. -/
def openRangeEnders : List String :=
  [",", ";", "?", "=>", "=", "+", "/", "%", "^", ">", "<=", "!=", "-=", "*=", "&=", "|=", "<<="]

/-- Where a half-open range has no end. -/
def openRangeEnd (structs : Bool) (ts : List TokenTree) : Bool :=
  ts.isEmpty || openRangeEnders.any (fun s => Ahead.op s ts) ||
    (Ahead.op "." ts && !Ahead.op ".." ts) || (!structs && Ahead.group .brace ts) ||
    Ahead.keyword "as" ts

/-- Whether a group in braces starts with an inner attribute. -/
def startsWithAttribute : Code → Bool
  | .group _ _ parts => parts.head?.any Code.isAttribute
  | _ => false

mutual

/-- Puts parentheses around the plain block that an expression starts with. -/
def shieldBlock : Code → Code
  | .node .block [body] =>
    if startsWithAttribute body then .node .block [body]
    else .node .paren [.group {} .paren [.node .block [body]]]
  | .node .binary parts => .node .binary (shieldHead parts)
  | .node .cast parts => .node .cast (shieldHead parts)
  | .node .call parts => .node .call (shieldHead parts)
  | .node .index parts => .node .index (shieldHead parts)
  | .node .methodCall parts => .node .methodCall (shieldHead parts)
  | .node .fieldAccess parts => .node .fieldAccess (shieldHead parts)
  | .node .awaitExpr parts => .node .awaitExpr (shieldHead parts)
  | .node .tryExpr parts => .node .tryExpr (shieldHead parts)
  | c => c

/-- Shields the first piece of a list. -/
def shieldHead : List Code → List Code
  | [] => []
  | c :: cs => shieldBlock c :: cs

end

/-- The dots and the end of a range. Where a brace would start a body, an end that starts with a
block stands in parentheses. -/
def rangeTail (structs : Bool) : Parser (List Code) := do
  let ts ← look
  let dots ← if Ahead.op "..=" ts then op "..="
    else if Ahead.op "..." ts then fail "expected `..=`"
    else op ".."
  let isClosed := Ahead.op "..=" ts
  if !isClosed && openRangeEnd structs (← look) then return [dots]
  let stop ← g.rightHandSide structs .range
  return [dots, if structs then stop else shieldBlock stop]

/-- What cannot follow a cast, by the token ahead. -/
def afterCast? (ts : List TokenTree) : Option String :=
  let second := ts.drop 1
  let third := ts.drop 2
  if Ahead.op "." ts && !Ahead.op ".." ts then
    if Ahead.keyword "await" second then some "`.await`"
    else if Ahead.ident second && (Ahead.group .paren third || Ahead.op "::" third) then
      some "a method call"
    else some "a field access"
  else if Ahead.op "?" ts then some "`?`"
  else if Ahead.group .bracket ts then some "indexing"
  else if Ahead.group .paren ts then some "a function call"
  else none

/-- The operators after an operand, from precedence `base` on. -/
def operatorsRule (structs : Bool) (base : Precedence) (lhs : Code) : Parser Code :=
  loop lhs fun lhs => do
    let ts ← look
    if isRange lhs then return (lhs, false)
    match binaryOperator? ts with
    | some (s, p) =>
      if p.rank < base.rank then return (lhs, false)
      if p == .compare && isComparison lhs then fail "comparison operators cannot be chained"
      let o ← op s
      let rhs ← g.rightHandSide structs p
      return (.node .binary [lhs, o, rhs], true)
    | none =>
      if base.rank ≤ Precedence.assign.rank && assigns ts then
        let eq ← op "="
        let rhs ← g.rightHandSide structs .assign
        return (.node .assign [lhs, eq, rhs], true)
      else if base.rank ≤ Precedence.range.rank && Ahead.op ".." ts then
        return (.node .range (lhs :: (← g.rangeTail structs)), true)
      else if base.rank ≤ Precedence.cast.rank && Ahead.keyword "as" ts then
        let kw ← keyword "as"
        let ty ← g (.type false)
        match afterCast? (← look) with
        | some what => fail s!"casts cannot be followed by {what}"
        | none => return (.node .cast [lhs, kw, ty], true)
      else return (lhs, false)

/-- An expression. -/
def exprRule (structs : Bool) : Parser Code := do
  let lhs ← g (.operand structs)
  g (.operators structs .jump lhs)

/-! ### Atoms -/

/-- Arguments in parentheses. -/
def arguments : Parser Code :=
  groupOf .paren (terminatedCode g.expr)

/-- A member of a struct literal. -/
def fieldValue : Parser Member := do
  let attrs ← g.outerAttributeCode
  let name ← memberName
  if !name.isNamed || Ahead.op ":" (← look) then
    let colon ← op ":"
    return .mk attrs name [colon, ← g.expr]
  else return .mk attrs name []

/-- The members of a struct literal, and `..` with its base. -/
def fieldValues : Parser (List Member × Bool × List Code) := do
  let (members, trailing, rest) ← loop (([] : List Member), false, ([] : List Code))
    fun (done, trailing, rest) => do
      if ← atEnd then return ((done, trailing, rest), false)
      if Ahead.op ".." (← look) then
        let dots ← op ".."
        let base ← if ← atEnd then pure [] else (do return [← g.expr])
        return ((done, trailing, dots :: base), false)
      let m ← g.fieldValue
      if ← atEnd then return ((m :: done, false, rest), false)
      let _ ← op ","
      return ((m :: done, true, rest), true)
  return (members.reverse, trailing, rest)

/-- A path, a macro call or a struct literal. -/
def pathExpr (structs : Bool) : Parser Code := do
  let path ← g.anyPath true
  let ts ← look
  if Ahead.op "!" ts && !Ahead.op "!=" ts && isPlain path then
    let bang ← op "!"
    let (_, body) ← rawGroup
    return .node .macroCall [.path path, bang, body]
  else if structs && Ahead.group .brace ts then
    let (_, members, trailing, rest) ← inGroup .brace g.fieldValues
    return .structLit path members trailing rest
  else return .path path

/-- Parentheses around an expression, or a tuple. -/
def parenExpr : Parser Code := do
  let (pos, parts) ← inGroup .paren (terminatedCode g.expr)
  let shape : Shape := match parts with
    | [_] => .paren
    | _ => .tuple
  return .node shape [.group pos .paren parts]

/-- The content of brackets: a list, or an element and a count. -/
def arrayContent : Parser (Shape × List Code) := do
  if ← atEnd then return (.array, [])
  let first ← g.expr
  let ts ← look
  if ts.isEmpty then return (.array, [first])
  else if Ahead.op "," ts then
    let comma ← op ","
    return (.array, first :: comma :: (← terminatedCode g.expr))
  else if Ahead.op ";" ts then
    let semi ← op ";"
    return (.repeatArray, [first, semi, ← g.expr])
  else fail "expected `,` or `;`"

/-- An array. -/
def arrayExpr : Parser Code := do
  let (pos, shape, parts) ← inGroup .bracket g.arrayContent
  return .node shape [.group pos .bracket parts]

/-- Whether an expression can start here. -/
def exprStart (ts : List TokenTree) : Bool :=
  (Ahead.anyIdent ts && !Ahead.keyword "as" ts) || Ahead.group .paren ts ||
    Ahead.group .bracket ts || Ahead.group .brace ts || Ahead.literal ts ||
    (Ahead.op "!" ts && !Ahead.op "!=" ts) ||
    (Ahead.op "-" ts && !Ahead.op "-=" ts && !Ahead.op "->" ts) ||
    (Ahead.op "*" ts && !Ahead.op "*=" ts) || (Ahead.op "|" ts && !Ahead.op "|=" ts) ||
    (Ahead.op "&" ts && !Ahead.op "&=" ts) || Ahead.op ".." ts ||
    (Ahead.op "<" ts && !Ahead.op "<=" ts && !Ahead.op "<<=" ts) || Ahead.op "::" ts ||
    Ahead.lifetime ts || Ahead.op "#" ts

/-- An optional operand of `return`, `yield` or `break`; it may start with a brace iff `braces`. -/
def jumpValue (braces : Bool) : Parser (List Code) := do
  let ts ← look
  if exprStart ts && (braces || !Ahead.group .brace ts) then return [← g.expr]
  else return []

/-- A `break` with its label and value. -/
def breakExpr (structs : Bool) : Parser Code := do
  let kw ← keyword "break"
  let ts ← look
  if Ahead.lifetime ts && Ahead.op ":" (ts.drop 1) then
    let _ ← g.expr
    failWith "parentheses required"
  let label ← lifetime?
  return .node .breakExpr (kw :: label ++ (← g.jumpValue structs))

/-- An `if` with its `else` branches. -/
def ifExpr : Parser Code := do
  let parts ← loop ([] : List Code) fun done => do
    let kw ← keyword "if"
    let cond ← g (.expr false)
    let body ← g.block false
    let done := body :: cond :: kw :: done
    if !Ahead.keyword "else" (← look) then return (done, false)
    let other ← keyword "else"
    let ts ← look
    if Ahead.keyword "if" ts then return (other :: done, true)
    else if Ahead.group .brace ts then return ((← g.block false) :: other :: done, false)
    else fail "expected `if` or curly braces"
  return .node .ifElse parts.reverse

/-- One arm of a `match`. -/
def matchArm : Parser Code := do
  let attrs ← g.outerAttributeCode
  let pat ← g.alternatives
  let guard ← if Ahead.keyword "if" (← look) then do
      let kw ← keyword "if"
      pure [kw, ← g.expr]
    else pure []
  let arrow ← op "=>"
  let body ← g .stmtExpr
  let comma ← if !body.closesItself && !(← atEnd) then (do return [← op ","]) else op? ","
  return .node .matchArm (attrs ++ pat :: guard ++ arrow :: body :: comma)

/-- A `match`. -/
def matchExpr : Parser Code := do
  let kw ← keyword "match"
  let scrutinee ← g (.expr false)
  let arms ← groupOf .brace do
    let attrs ← g.innerAttributeCode
    return attrs ++ (← untilEnd g.matchArm)
  return .node .matchExpr [kw, scrutinee, arms]

/-- Puts attributes on a construct that can carry them: code kept as written cannot. -/
def attributedKnown (attrs : List Code) : Code → Code
  | .node .verbatim parts => .node .verbatim parts
  | c => attributed attrs c

/-- A parameter of a closure. -/
def closureParam : Parser Code := do
  let attrs ← g.outerAttributeCode
  let pat ← g .pattern
  if Ahead.op ":" (← look) then
    let colon ← op ":"
    return .node .typedPat (attrs ++ [pat, colon, ← g.type])
  else return attributedKnown attrs pat

/-- A closure. -/
def closure (structs : Bool) : Parser Code := do
  let binder ← g.binder?
  let constness ← keyword? "const"
  let movability ← keyword? "static"
  let asyncness ← keyword? "async"
  let capture ← keyword? "move"
  let bar ← op "|"
  let params ← loop ([] : List Code) fun done => do
    if Ahead.op "|" (← look) then return (done, false)
    let p ← g.closureParam
    if Ahead.op "|" (← look) then return (p :: done, false)
    let comma ← op ","
    return (comma :: p :: done, true)
  let bar' ← op "|"
  let body ← if Ahead.op "->" (← look) then do
      let out ← g.returnType true
      pure (out ++ [.node .block [← g.block false]])
    else (do return [← g (.expr structs)])
  return .node .closure
    (binder ++ constness ++ movability ++ asyncness ++ capture ++ bar :: params.reverse ++
      bar' :: body)

/-- A loop or block behind its label. -/
def loopBody (label : List Code) : Parser Code := do
  let ts ← look
  if Ahead.keyword "while" ts then
    let kw ← keyword "while"
    let cond ← g (.expr false)
    return .node .whileLoop (label ++ [kw, cond, ← g.block true])
  else if Ahead.keyword "for" ts then
    let kw ← keyword "for"
    let pat ← g.alternatives
    let inn ← keyword "in"
    let range ← g (.expr false)
    return .node .forLoop (label ++ [kw, pat, inn, range, ← g.block true])
  else if Ahead.keyword "loop" ts then
    let kw ← keyword "loop"
    return .node .loopExpr (label ++ [kw, ← g.block true])
  else if Ahead.group .brace ts then return .node .block (label ++ [← g.block true])
  else fail "expected loop or block expression"

/-- A labelled loop or block. -/
def labelled : Parser Code := do
  let l ← lifetime
  let colon ← op ":"
  g.loopBody [.node .label [l, colon]]

/-- A condition `let pattern = expression`. -/
def letCondition (structs : Bool) : Parser Code := do
  let kw ← keyword "let"
  let pat ← g.alternatives
  let eq ← op "="
  let lhs ← g (.operand structs)
  return .node .letCond [kw, pat, eq, ← g (.operators structs .compare lhs)]

/-- A closure behind its binder starts here, rather than a loop. -/
def binderAhead (ts : List TokenTree) : Bool :=
  Ahead.keyword "for" ts && startsGenerics (ts.drop 1)

/-- A closure starts here. -/
def closureStart (ts : List TokenTree) : Bool :=
  let second := ts.drop 1
  Ahead.op "|" ts || Ahead.keyword "move" ts || binderAhead ts ||
    (Ahead.keyword "const" ts && !Ahead.group .brace second) || Ahead.keyword "static" ts ||
    (Ahead.keyword "async" ts && (Ahead.op "|" second || Ahead.keyword "move" second))

/-- An expression without operators around it. -/
def atom (structs : Bool) : Parser Code := do
  let ts ← look
  let second := ts.drop 1
  if Ahead.literal ts then
    match ← literal with
    | [c] => return c
    | cs => return .node .literal cs
  else if Ahead.keyword "async" ts && (Ahead.group .brace second ||
      Ahead.keyword "move" second && Ahead.group .brace (ts.drop 2)) then
    let kw ← keyword "async"
    let capture ← keyword? "move"
    return .node .asyncBlock (kw :: capture ++ [← g.block false])
  else if Ahead.keyword "try" ts && Ahead.group .brace second then
    let kw ← keyword "try"
    return .node .tryBlock [kw, ← g.block false]
  else if closureStart ts then g.closure structs
  else if builtinAhead ts then builtinForm
  else if Ahead.pathStart ts || Ahead.op "<" ts ||
      Ahead.keyword "try" ts && (Ahead.op "!" second || Ahead.op "::" second) then
    g.pathExpr structs
  else if Ahead.group .paren ts then g.parenExpr
  else if Ahead.keyword "break" ts then g.breakExpr structs
  else if Ahead.keyword "continue" ts then
    let kw ← keyword "continue"
    return .node .continueExpr (kw :: (← lifetime?))
  else if Ahead.keyword "return" ts then
    let kw ← keyword "return"
    return .node .returnExpr (kw :: (← g.jumpValue true))
  else if Ahead.keyword "become" ts then
    let _ ← keyword "become"
    let _ ← g.expr
    verbatimSince ts
  else if Ahead.group .bracket ts then g.arrayExpr
  else if Ahead.keyword "let" ts then g.letCondition structs
  else if Ahead.keyword "if" ts then g.ifExpr
  else if Ahead.keywords ["while", "for", "loop"] ts then g.loopBody []
  else if Ahead.keyword "match" ts then g.matchExpr
  else if Ahead.keyword "yield" ts then
    let kw ← keyword "yield"
    return .node .yieldExpr (kw :: (← g.jumpValue true))
  else if Ahead.keyword "unsafe" ts then
    let kw ← keyword "unsafe"
    return .node .unsafeBlock [kw, ← g.block true]
  else if Ahead.keyword "const" ts then
    let kw ← keyword "const"
    return .node .constBlock [kw, ← g.block true]
  else if Ahead.group .brace ts then g.loopBody []
  else if Ahead.op ".." ts then return .node .range (← g.rangeTail structs)
  else if Ahead.keyword "_" ts then return .node .infer [← keyword "_"]
  else if Ahead.lifetime ts then g.labelled
  else fail "expected an expression"

/-! ### Trailers -/

/-- The parts of a number such as `0.1` after a dot: two tuple positions. -/
def splitIndices? (text : String) : Option (List String × Bool) :=
  let parts := text.splitOn "."
  let isOpen := parts.getLast? == some ""
  let parts := if isOpen then parts.dropLast else parts
  if parts.length < 2 && !isOpen then none
  else match parts.mapM indexText? with
    | some indices => some (indices, isOpen)
    | none => none

/-- Accesses to tuple positions, one after the other. -/
def tupleAccess (e : Code) (pos : Position) : List String → Code
  | [] => e
  | i :: is =>
    tupleAccess (.node .fieldAccess [e, .op pos ".", .tree (.leaf pos (.literal i))]) pos is

/-- What follows a dot that has been read: `await`, a field or a method call. -/
def afterDot (e dot : Code) : Parser Code := do
  let ts ← look
  if Ahead.keyword "await" ts then return .node .awaitExpr [e, dot, ← keyword "await"]
  let name ← memberName
  let turbofish ← if name.isNamed && Ahead.op "::" (← look) then (do return [← g.genericArgs])
    else pure []
  if name.isNamed && (!turbofish.isEmpty || Ahead.group .paren (← look)) then
    let args ← g.arguments
    return .node .methodCall (e :: dot :: .tree name.tree :: turbofish ++ [args])
  else return .node .fieldAccess [e, dot, .tree name.tree]

/-- Calls, member accesses, indexing and `?` after an expression. -/
def trailers (e : Code) : Parser Code :=
  loop e fun e => do
    let ts ← look
    if Ahead.group .paren ts then return (.node .call [e, ← g.arguments], true)
    else if Ahead.op "." ts && !Ahead.op ".." ts && !isRange e then
      let dot ← op "."
      match ← look with
      | .leaf pos (.literal t) :: rest =>
        match splitIndices? t with
        | some (indices, isOpen) =>
          moveTo rest
          let e' := tupleAccess e pos indices
          if isOpen then return (← g.afterDot e' (.op pos "."), true)
          else return (e', true)
        | none => return (← g.afterDot e dot, true)
      | _ => return (← g.afterDot e dot, true)
    else if Ahead.group .bracket ts then
      return (.node .index [e, ← groupOf .bracket (do return [← g.expr])], true)
    else if Ahead.op "?" ts && !isRange e then return (.node .tryExpr [e, ← op "?"], true)
    else return (e, false)

/-- Whether code is kept as written. -/
def isVerbatim : Code → Bool
  | .node .verbatim _ => true
  | _ => false

/-- An atom and its trailers behind attributes, all read since `start`. -/
def trailed (structs : Bool) (start : List TokenTree) (attrs : List Code) : Parser Code := do
  let e ← g.trailers (← g.atom structs)
  if isVerbatim e then verbatimSince start
  else if !attrs.isEmpty && isRange e then
    failWith "attributes are not allowed on range expressions starting with `..`"
  else return attributed attrs e

/-- Unary operators and references in front of an atom. -/
def operandRule (structs : Bool) : Parser Code := do
  let start ← look
  let attrs ← g.outerAttributeCode
  let ts ← look
  if Ahead.op "&" ts then
    let amp ← op "&"
    let ts ← look
    if Ahead.keyword "raw" ts && Ahead.keywords ["mut", "const"] (ts.drop 1) then
      let raw ← keyword "raw"
      let ts ← look
      let kw ← if Ahead.keyword "mut" ts then keyword "mut" else keyword "const"
      return attributed attrs (.node .rawAddress [amp, raw, kw, ← g (.operand structs)])
    else
      let mutability ← keyword? "mut"
      return attributed attrs (.node .reference (amp :: mutability ++ [← g (.operand structs)]))
  else if Ahead.op "*" ts || Ahead.op "!" ts || Ahead.op "-" ts then
    let o ← op (if Ahead.op "*" ts then "*" else if Ahead.op "!" ts then "!" else "-")
    return attributed attrs (.node .unary [o, ← g (.operand structs)])
  else g.trailed structs start attrs

/-! ### Statements -/

/-- Puts attributes on an operand. A range with attributes stands in parentheses. -/
def attributedOperand (attrs : List Code) : Code → Code
  | .node .range parts =>
    if attrs.isEmpty then .node .range parts
    else .node .attributed (attrs ++ [.node .range [.group {} .paren parts]])
  | c => attributedKnown attrs c

mutual

/-- Puts attributes on the first operand of an expression. -/
def attributedFirst (attrs : List Code) : Code → Code
  | .node .assign parts => .node .assign (attributedHead attrs parts)
  | .node .binary parts => .node .binary (attributedHead attrs parts)
  | .node .cast parts => .node .cast (attributedHead attrs parts)
  | c => attributedOperand attrs c

/-- Puts attributes on the first operand of the first piece. -/
def attributedHead (attrs : List Code) : List Code → List Code
  | [] => []
  | c :: cs => attributedFirst attrs c :: cs

end

/-- An expression that may end a statement or match arm early. Attributes belong to its first
operand. -/
def stmtExprRule : Parser Code := do
  let attrs ← g.outerAttributeCode
  let ts ← look
  let second := ts.drop 1
  let e ←
    if Ahead.keywords ["if", "while", "loop", "match", "unsafe"] ts ||
        (Ahead.keyword "for" ts && !binderAhead ts) ||
        (Ahead.keywords ["try", "const"] ts && Ahead.group .brace second) ||
        Ahead.group .brace ts || Ahead.lifetime ts then g.atom true
    else g (.operand true)
  let ts ← look
  if !e.closesItself then g (.operators true .jump (attributedOperand attrs e))
  else if Ahead.op "." ts && !Ahead.op ".." ts || Ahead.op "?" ts then
    let e ← g.trailers e
    g (.operators true .jump (attributedOperand attrs e))
  else return attributedOperand attrs e

/-- A `let` statement. -/
def localLet (attrs : List Code) : Parser Code := do
  let kw ← keyword "let"
  let pat ← g .pattern
  let typed ← if Ahead.op ":" (← look) then do
      let colon ← op ":"
      pure [colon, ← g.type]
    else pure []
  let init ← if Ahead.op "=" (← look) then do
      let eq ← op "="
      let e ← g.expr
      if !endsWithBrace e && Ahead.keyword "else" (← look) then
        let kw ← keyword "else"
        pure [eq, e, kw, .node .block [← g.block false]]
      else pure [eq, e]
    else pure []
  let semi ← op ";"
  return .node .localLet (attrs ++ kw :: pat :: typed ++ init ++ [semi])

/-- Where an item starts among statements. -/
def itemStart (ts : List TokenTree) : Bool :=
  let second := ts.drop 1
  let third := ts.drop 2
  Ahead.keyword "pub" ts || (Ahead.keyword "crate" ts && !Ahead.op "::" second) ||
    Ahead.keywords ["extern", "use", "fn", "mod", "type", "struct", "enum", "trait", "impl",
      "macro"] ts ||
    (Ahead.keyword "static" ts && (Ahead.keyword "mut" second || Ahead.ident second)) ||
    (Ahead.keyword "const" ts && !(Ahead.group .brace second ||
      Ahead.keywords ["static", "move"] second || Ahead.op "|" second ||
      (Ahead.keyword "async" second &&
        !Ahead.keywords ["unsafe", "extern", "fn"] third))) ||
    (Ahead.keyword "unsafe" ts && !Ahead.group .brace second) ||
    (Ahead.keyword "async" ts && Ahead.keywords ["unsafe", "extern", "fn"] second) ||
    (Ahead.keyword "union" ts && Ahead.ident second) ||
    (Ahead.keyword "auto" ts && Ahead.keyword "trait" second) ||
    (Ahead.keyword "default" ts && Ahead.keywords ["unsafe", "impl"] second)

/-- The path of a macro call that starts here, and what follows it. -/
def macroAhead? : Parser (Option (Code × List TokenTree)) := do
  let before ← get
  match plainPath.run before with
  | .ok ((global, names), c) =>
    if Ahead.op "!" c.trees then
      let root := if global then some (before.trees.head?.map TokenTree.pos |>.getD {}) else none
      return some (.path (.named root (names.map (fun w => .mk w []))), c.trees)
    else return none
  | .error _ => return none

/-- A statement. -/
def stmtRule : Parser Code := do
  let start ← look
  let attrs ← g.outerAttributes
  let attrCode := attrs.map Code.attr
  let call ← macroAhead?
  let ts ← look
  match call with
  | some (path, rest) =>
    let second := rest.drop 1
    let third := rest.drop 2
    if Ahead.ident second || Ahead.keyword "try" second then
      moveTo start
      return ← g .item
    if Ahead.group .brace second &&
        !((Ahead.op "." third && !Ahead.op ".." third) || Ahead.op "?" third) then
      moveTo rest
      let bang ← op "!"
      let (_, body) ← rawGroup
      return .node .macroStmt
        (attrCode ++ .node .macroCall [path, bang, body] :: (← op? ";"))
  | none => pure ()
  if Ahead.keyword "let" ts then g.localLet attrCode
  else if itemStart ts then
    moveTo start
    g .item
  else
    let e := attributedFirst attrCode (← g .stmtExpr)
    let semi ← op? ";"
    match e.core with
    | .node .macroCall parts =>
      if !semi.isEmpty || endsWithBrace e then
        return .node .macroStmt (attrCode ++ .node .macroCall parts :: semi)
      else return .node .exprStmt [e]
    | _ => return .node .exprStmt (e :: semi)

end FieldGraft.Grammar

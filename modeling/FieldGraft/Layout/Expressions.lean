import FieldGraft.Layout.Patterns

/-!
# Layout: expressions and statements

A chain of member accesses and method calls is one group: it stays on one line, or every dot starts
a new one. A struct literal wider than 34 is set with one member a line.
-/

namespace FieldGraft.Layout

open Doc

variable (l : Layout)

/-! ### Kinds of expressions -/

/-- A name that is not longer than a step of indentation. A dot after it starts no line. -/
def isShortName : Code → Bool
  | .path (.named none [.mk name []]) => (name.text.utf8ByteSize : Int) ≤ step
  | _ => false

/-- Whether an expression brings its own brackets, so that nothing around it need break. -/
def isBlockLike : Code → Bool
  | .structLit _ _ _ _ => true
  | .node s _ =>
    [Shape.array, .asyncBlock, .block, .closure, .constBlock, .tryBlock, .tuple,
      .unsafeBlock].contains s
  | _ => false

/-- Whether an operator assigns. -/
def isAssignment (s : String) : Bool :=
  ["+=", "-=", "*=", "/=", "%=", "^=", "&=", "|=", "<<=", ">>="].contains s

/-- Whether an expression at the end of a block gets a semicolon. -/
def gainsSemicolon (c : Code) : Bool :=
  match c.core with
  | .node .binary [_, .op _ s, _] => isAssignment s
  | .node s _ => [Shape.assign, .breakExpr, .continueExpr, .returnExpr, .yieldExpr].contains s
  | _ => false

/-- Whether a statement loses its semicolon. -/
def losesSemicolon (c : Code) : Bool :=
  match c.core with
  | .node .forLoop _ => true
  | .node .whileLoop _ => true
  | .node .ifElse parts => parts.length % 4 == 3
  | _ => false

mutual

/-- Whether the brace after a condition starts a line if the condition takes several. -/
def wrapsBeforeBrace : Code → Bool
  | .node s parts =>
    if [Shape.assign, .awaitExpr, .binary, .cast, .fieldAccess, .index, .methodCall].contains s then
      true
    else if s == .call || s == .tryExpr then firstWraps parts
    else if [Shape.letCond, .range, .reference, .unary, .breakExpr, .returnExpr, .yieldExpr,
        .rawAddress, .attributed, .paren].contains s then lastWraps parts
    else false
  | .group _ .paren parts => lastWraps parts
  | _ => false

/-- Whether that holds of the first part. -/
def firstWraps : List Code → Bool
  | [] => false
  | c :: _ => wrapsBeforeBrace c

/-- Whether that holds of the last part. -/
def lastWraps : List Code → Bool
  | [] => false
  | [c] => wrapsBeforeBrace c
  | _ :: cs => lastWraps cs

end

mutual

/-- Whether an expression reads the same at the start of a statement: nothing that it starts with
would end the statement. -/
def opensStatement : Code → Bool
  | .node s parts =>
    if [Shape.assign, .awaitExpr, .fieldAccess, .methodCall, .tryExpr].contains s then
      firstOpens false parts
    else if [Shape.binary, .call, .cast, .index, .range].contains s then firstOpens true parts
    else if s == .attributed then lastOpens parts
    else true
  | .group _ .paren parts => firstOpens true parts
  | _ => true

/-- Whether that holds of the first part. If `terminated`, the part may not end with a block of its
own either. -/
def firstOpens (terminated : Bool) : List Code → Bool
  | [] => true
  | c :: _ => !(terminated && c.closesItself) && opensStatement c

/-- Whether that holds of the last part. -/
def lastOpens : List Code → Bool
  | [] => true
  | [c] => opensStatement c
  | _ :: cs => lastOpens cs

end

/-! ### Statements and blocks -/

/-- The statements of a block, one a line. -/
def statements : List Code → List Doc
  | [] => []
  | s :: ss => l (.stmt ss.isEmpty) s ++ statements ss

/-- The content of braces that always takes lines of its own, if there is any. -/
def bodyLines (parts : List Code) : List Doc :=
  let inner := l.attributeCodes (parts.filter isInnerAttribute)
  let docs := inner ++ l.statements (parts.filter (fun c => !isInnerAttribute c))
  if docs.isEmpty then [] else hard :: shiftLast (-step) docs

/-- A body in braces as a group of its own. -/
def body (parts : List Code) : List Doc :=
  match l.bodyLines parts with
  | [] => [text "\x7b", never, text "\x7d"]
  | docs => [text "\x7b", never, consistent step docs, text "\x7d"]

/-- A block that stays on one line if it is a short expression. The group around it is given. -/
def smallBlock (parts : List Code) : List Doc :=
  let inner := l.attributeCodes (parts.filter isInnerAttribute)
  let stmts := parts.filter (fun c => !isInnerAttribute c)
  let docs := match stmts with
    | [.node .exprStmt [e]] => [inconsistent 0 (l (.expr true) e), space]
    | _ => l.statements stmts
  if parts.isEmpty then [text "\x7b\x7d"]
  else text "\x7b" :: shiftLast (-step) (space :: inner ++ docs) ++ [text "\x7d"]

/-- A small block in a group of its own, behind its keywords. -/
def blockAfter (lead : String) (parts : List Code) : List Doc :=
  (if lead = "" then [] else [text lead]) ++ [consistent step (l.smallBlock parts)]

/-- A label in front of a loop or block. -/
def labelText (parts : List Code) : String :=
  match parts with
  | .node .label inner :: _ => String.join (inner.map tightText) ++ " "
  | _ => ""

/-- The parts of a construct without its label. -/
def withoutLabel (parts : List Code) : List Code :=
  match parts with
  | .node .label _ :: rest => rest
  | parts => parts

/-- The condition of `if`, `while` and the like, with the blank after it. -/
def condition (c : Code) : List Doc :=
  let after := if wrapsBeforeBrace c then space else text " "
  [consistent 0 (l.expr c ++ [after])]

/-! ### Calls and chains -/

/-- Arguments between parentheses. -/
def callArgs (args : Code) : List Doc :=
  match members (groupParts args) with
  | [e] =>
    if isBlockLike e then text "(" :: l.expr e ++ [text ")"]
    else bracketed "(" ")" [l.expr e]
  | es => bracketed "(" ")" (es.map l.expr)

/-- The place before a dot. -/
def dotPlace (lineStart : Bool) (receiver : Code) : List Doc :=
  if lineStart && isShortName receiver then [] else [zero]

/-- The dot of a member access. It keeps apart from a number that ends with one. -/
def dotText : Code → String
  | .tree (.leaf _ (.literal s)) => if s.toList.getLast? = some '.' then " ." else "."
  | _ => "."

/-- A method call as the end of a chain. -/
def methodLink (lineStart unindent : Bool) (parts : List Code) : List Doc :=
  match parts with
  | receiver :: _ :: name :: rest =>
    let turbofish := rest.dropLast.flatMap fun c => match c with
      | .angled _ _ ms _ => l.genericArgs true ms
      | _ => []
    let args := (rest.getLast?.map l.callArgs).getD []
    l (.link lineStart) receiver ++ dotPlace lineStart receiver ++
      text (dotText receiver ++ tightText name) :: turbofish ++
      [consistent (if unindent then -step else 0) args]
  | _ => []

/-- The brackets of an index. -/
def indexDocs : Code → List Doc
  | .group _ _ [e] => text "[" :: l.expr e ++ [text "]"]
  | c => [text (tightText c)]

/-- An expression as the front of a chain. -/
def linkDocs (lineStart : Bool) (c : Code) : List Doc :=
  match c with
  | .node .methodCall parts => l.methodLink lineStart false parts
  | .node .awaitExpr [e, _, _] =>
    l (.link lineStart) e ++ dotPlace lineStart e ++ [text (dotText e ++ "await")]
  | .node .fieldAccess [e, _, m] =>
    l (.link lineStart) e ++ dotPlace lineStart e ++ [text (dotText e ++ tightText m)]
  | .node .tryExpr [e, _] => l (.link lineStart) e ++ [text "?"]
  | .node .call [e, args] => l (.link false) e ++ l.callArgs args
  | .node .index [e, i] => l (.link lineStart) e ++ l.indexDocs i
  | c => [consistent (-step) (l.expr c)]

/-! ### Literals -/

/-- A member of a struct literal. -/
def literalMember : Member → List Doc
  | .mk lead name value =>
    l.attributeCodes lead ++ match value with
      | [_, e] => [text (name.word.text ++ ": "), inconsistent 0 (l.expr e)]
      | _ => [text name.word.text]

/-- The width that a struct literal on one line has at most. -/
def literalWidth : Nat := 34

/-- Whether an expression is a range without a start. -/
def isStartless : Code → Bool
  | .node .range (.op _ _ :: _) => true
  | _ => false

/-- The dots of a range or of a base, and the expression after them, if there is one. Dots keep
apart from further dots. -/
def dotsBefore (dots : String) : List Code → List Doc
  | [] => [text dots]
  | e :: _ => text dots :: (if dots == ".." && isStartless e then [text " "] else []) ++ l.expr e

/-- A struct literal. Dots without a base are left out; an empty literal that is too wide ends its
line all the same. -/
def structLiteral (p : Path) (ms : List Member) (rest : List Code) : List Doc :=
  let name := [inconsistent (-step) (l.path true p), text " \x7b"]
  let base := match rest with
    | [_, e] => l.dotsBefore ".." [e]
    | _ => []
  let content :=
    if !ms.isEmpty || !base.isEmpty then memberList (ms.map l.literalMember) base
    else if literalWidth < widthList name + 1 then shiftLast (-step) [space]
    else []
  [group step true (some literalWidth) (name ++ content), text "\x7d"]

/-- Whether an element is an integer, a character, a byte or a truth value. -/
def isPlainElement (c : Code) : Bool :=
  match c.core with
  | .tree (.leaf _ (.ident s)) => s == "true" || s == "false"
  | .tree (.leaf _ (.literal s)) =>
    match s.toList with
    | '\'' :: _ => true
    | 'b' :: '\'' :: _ => true
    | _ => (Literal.integerValue? s).isSome
  | .path (.named none [.mk w []]) => w.text == "true" || w.text == "false"
  | _ => false

/-- An array. Plain elements share lines. -/
def arrayDocs (elems : List Code) : List Doc :=
  if elems.isEmpty then [text "[]"]
  else if elems.all isPlainElement then
    let row := joined [text ",", space] (elems.map l.expr)
    [consistent step (text "[" :: zero :: inconsistent 0 row ::
      shiftLast (-step) [lastComma 0] ++ [text "]"])]
  else bracketed "[" "]" (elems.map l.expr)

/-! ### Closures and arms -/

/-- An expression that gets braces around it if it takes lines of its own, or parentheses where it
would not read the same as a statement. `comma` is what follows the parentheses, and `otherwise`
what stands on a line that goes on. -/
def wrappedIfBroken (c : Code) (docs : List Doc) (comma otherwise : String) : List Doc :=
  let ends : Break :=
    if opensStatement c then
      { offset := -step, before := if gainsSemicolon c then ";" else "", after := "\x7d",
        otherwise }
    else { offset := -step, after := ")" ++ comma, otherwise }
  [consistent step
    (line { before := if opensStatement c then "\x7b" else "(" } :: docs ++ [line ends])]

/-- Parameters of a closure with commas between them. -/
def closureParams : List Code → List Doc
  | [] => []
  | [p] => l.pattern p
  | p :: q :: rest => l.pattern p ++ [text ",", space] ++ closureParams (q :: rest)

/-- A closure. -/
def closureDocs (parts : List Code) : List Doc :=
  let isBar (c : Code) : Bool := isOp "|" c
  let start := l.wordsWithBinder (parts.takeWhile (fun c => !isBar c))
  let rest := (parts.dropWhile (fun c => !isBar c)).drop 1
  let params := members (rest.takeWhile (fun c => !isBar c))
  let front := if params.isEmpty then [] else zero :: l.closureParams params
  match (rest.dropWhile (fun c => !isBar c)).drop 1 with
  | [body] =>
    let head := consistent step
      (text "|" :: front ++ [text "|", line { blank := 1, offset := -step }])
    let wraps := match body with
      | .node .matchExpr _ => false
      | .node .call _ => false
      | c => !isBlockLike c
    [inconsistent 0 (start ++ [head, never] ++
      (if wraps then wrappedIfBroken body (l.expr body) "" "" else l.expr body))]
  | [_, ty, body] =>
    let close := if params.isEmpty then [] else [line { before := ",", offset := -step }]
    [inconsistent 0 (start ++ consistent step (text "|" :: front ++ close ++ [text "|"]) ::
      text " -> " :: l.type ty ++ [text " ", never] ++ l.expr body)]
  | _ => start

/-- The body of an arm: a block of one expression stands for the expression. -/
def armBody : Nat → Code → Code
  | 0, c => c
  | fuel + 1, c =>
    match c with
    | .node .block [.group _ _ [.node .exprStmt [e]]] => armBody fuel e
    | .node .tuple [.group pos _ []] => .node .block [.group pos .brace []]
    | c => c

/-- One arm of a `match`. -/
def arm (parts : List Code) : List Doc :=
  let (attrs, parts) := splitAttributes parts
  let front := parts.takeWhile (fun c => !isOp "=>" c)
  let head := match front with
    | [p, _, guard] => l.pattern p ++ text " if " :: l.expr guard
    | [p] => l.pattern p
    | _ => []
  let body := match (parts.dropWhile (fun c => !isOp "=>" c)).drop 1 with
    | c :: _ => armBody (TokenTree.sizeList c.trees + 1) c
    | [] => default
  let shown := match body.core with
    | .node .block inner =>
      text (labelText inner) :: l.body (groupParts ((withoutLabel inner).headD default))
    | _ => never :: wrappedIfBroken body (l (.expr true) body) ","
      (if body.closesItself then "" else ",")
  l.attributeCodes attrs ++ [inconsistent 0 (head ++ text " => " :: shown)]

/-- An `if` with all its branches; the group around it is given. -/
def branches (isFirst : Bool) : List Code → List Doc
  | [] => []
  | _ :: cond :: block :: rest =>
    let head := [text "if ", consistent (-step) (l.condition cond)]
    match rest with
    | [] =>
      if !isFirst then head ++ l.smallBlock (groupParts block)
      else if (groupParts block).isEmpty then head ++ [text "\x7b\x7d"]
      else
        head ++ text "\x7b" :: shiftLast (-step) (hard :: l.statements (groupParts block)) ++
          [text "\x7d"]
    | [_, other] =>
      head ++ l.smallBlock (groupParts block) ++ text " else " :: l.smallBlock (groupParts other)
    | _ :: more =>
      head ++ l.smallBlock (groupParts block) ++ text " else " :: branches false more
  | _ => []

/-! ### Expressions -/

/-- Text of an operator in front of its operand. -/
def operatorText : Code → String
  | .op _ s => s
  | c => tightText c

/-- A range: its start, dots and end. -/
def rangeDocs : List Code → List Doc
  | .op _ dots :: stop => l.dotsBefore dots stop
  | start :: .op _ dots :: stop => l.expr start ++ l.dotsBefore dots stop
  | _ => []

/-- An expression. -/
def exprDocs (lineStart : Bool) (c : Code) : List Doc :=
  match c with
  | .path p => l.path true p
  | .structLit p ms _ rest => l.structLiteral p ms rest
  | .node .attributed parts =>
    let (attrs, rest) := splitAttributes parts
    l.attributeCodes attrs ++ rest.flatMap (l (.expr lineStart))
  | .node .array [.group _ _ parts] => l.arrayDocs (members parts)
  | .node .repeatArray [.group _ _ [e, _, n]] =>
    text "[" :: l.expr e ++ text "; " :: l.expr n ++ [text "]"]
  | .node .assign [a, _, b] =>
    [inconsistent 0 (l.expr a ++ [text " = ", never] ++ l.expr b)]
  | .node .binary [a, o, b] =>
    [inconsistent step (inconsistent (-step) (l.expr a) :: space ::
      text (operatorText o ++ " ") :: l.expr b)]
  | .node .cast [e, _, ty] =>
    [inconsistent step (inconsistent (-step) (l.expr e) :: space :: text "as " :: l.type ty)]
  | .node .asyncBlock parts =>
    l.blockAfter (leadText parts.dropLast) (groupParts (parts.getLastD default))
  | .node .tryBlock [_, b] => l.blockAfter "try " (groupParts b)
  | .node .unsafeBlock [_, b] => l.blockAfter "unsafe " (groupParts b)
  | .node .constBlock [_, b] => l.blockAfter "const " (groupParts b)
  | .node .block parts =>
    l.blockAfter (labelText parts) (groupParts ((withoutLabel parts).headD default))
  | .node .breakExpr (_ :: parts) =>
    text "break" :: parts.flatMap fun c => match c with
      | .tree (.leaf _ (.lifetime s)) => [text (" " ++ s)]
      | e => text " " :: l.expr e
  | .node .continueExpr (_ :: parts) =>
    [text (String.join ("continue" :: parts.map (fun c => " " ++ tightText c)))]
  | .node .returnExpr (_ :: parts) =>
    text "return" :: parts.flatMap (fun e => text " " :: l.expr e)
  | .node .yieldExpr (_ :: parts) =>
    text "yield" :: parts.flatMap (fun e => text " " :: l.expr e)
  | .node .call [f, args] => l.expr f ++ l.callArgs args
  | .node .index [e, i] => l (.expr lineStart) e ++ l.indexDocs i
  | .node .methodCall parts =>
    let unindent := lineStart && (parts.head?.map isShortName).getD false
    [consistent step (l.methodLink lineStart unindent parts)]
  | .node .awaitExpr _ => [consistent step (l.linkDocs lineStart c)]
  | .node .fieldAccess _ => [consistent step (l.linkDocs lineStart c)]
  | .node .tryExpr [e, _] => l (.expr lineStart) e ++ [text "?"]
  | .node .closure parts => l.closureDocs parts
  | .node .forLoop parts =>
    match withoutLabel parts with
    | [_, p, _, e, b] =>
      [inconsistent 0 (text (labelText parts ++ "for ") :: l.pattern p ++
        [text " in ", never] ++ l.condition e ++ l.body (groupParts b))]
    | _ => []
  | .node .whileLoop parts =>
    match withoutLabel parts with
    | [_, e, b] =>
      text (labelText parts ++ "while ") :: l.condition e ++ l.body (groupParts b)
    | _ => []
  | .node .loopExpr parts =>
    match withoutLabel parts with
    | [_, b] =>
      match l.bodyLines (groupParts b) with
      | [] => [text (labelText parts ++ "loop \x7b\x7d")]
      | docs => [text (labelText parts ++ "loop \x7b"), consistent step docs, text "\x7d"]
    | _ => []
  | .node .ifElse parts => [consistent step (l.branches true parts)]
  | .node .letCond [_, p, _, e] =>
    [inconsistent 0 (text "let " :: l.pattern p ++ [text " = ", never] ++ l.expr e)]
  | .node .matchExpr [_, e, b] =>
    let arms := (groupParts b).flatMap fun c => match c with
      | .node .matchArm parts => l.arm parts ++ [hard]
      | .attr a => l.attributeDocs a
      | _ => []
    let content := if arms.isEmpty then []
      else [consistent step (hard :: shiftLast (-step) arms)]
    [inconsistent 0
      (text "match " :: l.condition e ++ [text "\x7b", never] ++ content ++ [text "\x7d"])]
  | .node .paren [.group _ _ [e]] => text "(" :: l.expr e ++ [text ")"]
  | .node .tuple [.group _ _ parts] => tuple ((members parts).map l.expr)
  | .node .range [.group _ _ parts] => l.rangeDocs parts
  | .node .range parts => l.rangeDocs parts
  | .node .reference parts => afterWords l.expr parts
  | .node .rawAddress parts => afterWords l.expr parts
  | .node .unary parts => afterWords l.expr parts
  | .node .macroCall parts => macroCall false parts
  | c => [text (tightText c)]

/-! ### Statements -/

/-- A `let` statement. -/
def letDocs (parts : List Code) : List Doc :=
  let front := parts.takeWhile (fun c => !isOp "=" c && !isOp ";" c)
  let rest := parts.dropWhile (fun c => !isOp "=" c && !isOp ";" c)
  let head := match front with
    | [_, p] => text "let " :: l.pattern p
    | [_, p, _, ty] => text "let " :: l.pattern p ++ text ": " :: l.type ty
    | _ => []
  match rest with
  | [_, e, _] =>
    [inconsistent 0 (head ++ [text " = ", never] ++ l.expr e), text ";", hard]
  | [_, e, _, .node .block [b], _] =>
    [inconsistent 0 (head ++ [text " = ", never] ++ l.expr e ++ [space, text "else "]), never,
      consistent step (l.smallBlock (groupParts b)), text ";", hard]
  | _ => [inconsistent 0 head, text ";", hard]

/-- A statement. -/
def stmtDocs (isLast : Bool) (c : Code) : List Doc :=
  match c with
  | .item i => l .item (.item i)
  | .node .emptyStmt _ => []
  | .node .localLet parts =>
    let (attrs, rest) := splitAttributes parts
    l.attributeCodes attrs ++ l.letDocs rest
  | .node .exprStmt [e] =>
    [inconsistent 0 (l (.expr true) e ++ (if gainsSemicolon e then [text ";"] else [])), hard]
  | .node .exprStmt [e, _] =>
    [inconsistent 0 (l (.expr true) e ++ (if losesSemicolon e then [] else [text ";"])), hard]
  | .node .macroStmt parts =>
    let (attrs, rest) := splitAttributes parts
    match rest with
    | .node _ call :: semi =>
      let semicolon := !semi.isEmpty || !isLast && macroNeedsSemicolon call
      l.attributeCodes attrs ++ macroCall semicolon call ++ [hard]
    | _ => []
  | c => l (.expr true) c ++ [hard]

end FieldGraft.Layout

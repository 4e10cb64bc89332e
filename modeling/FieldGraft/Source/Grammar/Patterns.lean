import FieldGraft.Source.Grammar.Types
import FieldGraft.Text.Identifier

/-!
# Grammar: patterns

`patternRule` reads a pattern without alternatives at the top. Struct patterns keep their members
apart, since injection completes them.
-/

namespace FieldGraft.Grammar

open FieldGraft.Parser

variable (g : Grammar)

/-- The decimal digits that an unsuffixed integer literal denotes, if it is one of 32 bits. -/
def indexText? (text : String) : Option String :=
  let cs := text.toList
  let digits (base : Nat) (cs : List Char) : Option String :=
    let ds := cs.filter (· != '_')
    if ds.isEmpty || !ds.all (fun c => Char.isDigit c || (base == 16 && c.isAlphanum)) then none
    else if ds.all (fun c => Text.hexValue c < base) then
      let value := ds.foldl (fun v c => base * v + Text.hexValue c) 0
      if value < 0x100000000 then some (toString value) else none
    else none
  match cs with
  | '0' :: 'x' :: rest => digits 16 rest
  | '0' :: 'o' :: rest => digits 8 rest
  | '0' :: 'b' :: rest => digits 2 rest
  | _ => digits 10 cs

/-- The name or number of a member. -/
def memberName : Parser MemberName := do
  let ts ← look
  if Ahead.ident ts then return .named (← ident)
  match ts with
  | .leaf pos (.literal t) :: rest =>
    match indexText? t with
    | some text => moveTo rest; return .indexed ⟨text, pos⟩
    | none => fail "expected identifier or integer"
  | _ => fail "expected identifier or integer"

/-- Patterns separated by `|`, after an optional leading one. -/
def alternatives : Parser Code := do
  let lead ← op? "|"
  let first ← g .pattern
  let more (ts : List TokenTree) : Bool :=
    Ahead.op "|" ts && !Ahead.op "||" ts && !Ahead.op "|=" ts
  if lead.isEmpty && !more (← look) then return first
  let rest ← loop ([] : List Code) fun done => do
    if more (← look) then
      let bar ← op "|"
      return ((← g .pattern) :: bar :: done, true)
    else return (done, false)
  return .node .orPat (lead ++ first :: rest.reverse)

/-- Where a range pattern has no end. -/
def rangeEnd (ts : List TokenTree) : Bool :=
  ts.isEmpty || Ahead.op "|" ts || Ahead.op "=" ts || (Ahead.op ":" ts && !Ahead.op "::" ts) ||
    Ahead.op "," ts || Ahead.op ";" ts || Ahead.keyword "if" ts

/-- A bound of a range pattern, which may be missing at the end. -/
def rangeBound : Parser (List Code) := do
  let ts ← look
  if rangeEnd ts then return []
  if Ahead.literal ts then return [.node .literal (← literal)]
  else if Ahead.pathStart ts || Ahead.op "<" ts then return [.path (← g.anyPath true)]
  else if Ahead.keyword "const" ts then
    let kw ← keyword "const"
    return [.node .constBlock [kw, ← g.block true]]
  else fail "expected one of: literal, identifier, `::`, `<`, `self`, `Self`, `super`, `crate`, `const`"

/-- The dots of a range pattern. Three dots are an old way to write `..=`. -/
def rangeDots : Parser Code := do
  let ts ← look
  if Ahead.op "..=" ts then op "..="
  else if Ahead.op "..." ts then
    let _ ← op "..."
    return .op ((ts.head?.map TokenTree.pos).getD {}) "..="
  else op ".."

/-- Whether the dots of a range include its end. -/
def isClosed : Code → Bool
  | .op _ s => s == "..="
  | _ => false

/-- A range pattern after its start. -/
def rangeRest (start : List Code) : Parser Code := do
  let dots ← rangeDots
  let stop ← g.rangeBound
  if isClosed dots && stop.isEmpty then fail "expected range upper bound"
  return .node .rangePat (start ++ dots :: stop)

/-- A field of a struct pattern. -/
def fieldPattern (attrs : List Code) : Parser Member := do
  let boxed ← keyword? "box"
  let byRef ← keyword? "ref"
  let mutability ← keyword? "mut"
  let lead := boxed ++ byRef ++ mutability
  let name ← if lead.isEmpty then memberName else (MemberName.named <$> ident)
  if !name.isNamed || lead.isEmpty && Ahead.op ":" (← look) then
    let colon ← op ":"
    return .mk attrs name [colon, ← g.alternatives]
  else return .mk (attrs ++ lead) name []

/-- The fields of a struct pattern, and `..` with its attributes. -/
def fieldPatterns : Parser (List Member × Bool × List Code) := do
  let (members, trailing, rest) ← loop (([] : List Member), false, ([] : List Code))
    fun (done, trailing, rest) => do
      if ← atEnd then return ((done, trailing, rest), false)
      let attrs ← g.outerAttributeCode
      if Ahead.op ".." (← look) then
        let dots ← op ".."
        return ((done, trailing, attrs ++ [dots]), false)
      let m ← g.fieldPattern attrs
      if ← atEnd then return ((m :: done, false, rest), false)
      let _ ← op ","
      return ((m :: done, true, rest), true)
  return (members.reverse, trailing, rest)

/-- Patterns of a tuple, separated by commas. -/
def patternList : Parser (List Code) :=
  terminatedCode g.alternatives

/-- Whether a pattern is a range without a start or without an end. -/
def isOpenRange : Code → Bool
  | .node .rangePat parts => parts.length < 3
  | _ => false

/-- Patterns of a slice, separated by commas. A range that is open on one side has to stand in
parentheses. -/
def slicePatterns : Parser (List Code) :=
  terminatedCode do
    let p ← g.alternatives
    if isOpenRange p then
      failWith "range pattern is not allowed unparenthesized inside slice pattern"
    return p

/-- A pattern that starts with a path. -/
def pathPattern : Parser Code := do
  let path ← g.anyPath true
  let ts ← look
  if Ahead.op "!" ts && !Ahead.op "!=" ts && isPlain path then
    let bang ← op "!"
    let (_, body) ← rawGroup
    return .node .macroCall [.path path, bang, body]
  else if Ahead.group .brace ts then
    let (_, members, trailing, rest) ← inGroup .brace g.fieldPatterns
    return .structPat path members trailing rest
  else if Ahead.group .paren ts then
    return .node .tupleStructPat [.path path, ← groupOf .paren g.patternList]
  else if Ahead.op ".." ts then g.rangeRest [.path path]
  else return .path path

/-- A binding. -/
def identPattern : Parser Code := do
  let byRef ← keyword? "ref"
  let mutability ← keyword? "mut"
  let name ← if Ahead.keyword "self" (← look) then anyIdent else ident
  let sub ← if Ahead.op "@" (← look) then do
      let at' ← op "@"
      pure [at', ← g .pattern]
    else pure []
  return .node .identPat (byRef ++ mutability ++ word name :: sub)

/-- Whether a list of code is one pattern without a comma. -/
def isSinglePattern : List Code → Bool
  | [.node .restPat _] => false
  | [_] => true
  | _ => false

/-- A pattern without alternatives. -/
def patternRule : Parser Code := do
  let ts ← look
  let second := ts.drop 1
  if Ahead.ident ts && (Ahead.op "::" second || Ahead.op "!" second ||
        Ahead.group .brace second || Ahead.group .paren second || Ahead.op ".." second) ||
      Ahead.keyword "self" ts && Ahead.op "::" second || Ahead.op "::" ts || Ahead.op "<" ts ||
      Ahead.keywords ["Self", "super", "crate"] ts then g.pathPattern
  else if Ahead.keyword "_" ts then return .node .wildPat [← keyword "_"]
  else if Ahead.keyword "box" ts then
    let _ ← keyword "box"
    let _ ← g .pattern
    verbatimSince ts
  else if Ahead.op "-" ts || Ahead.literal ts || Ahead.keyword "const" ts then
    let start ← g.rangeBound
    if Ahead.op ".." (← look) then g.rangeRest start
    else match start with
      | [c] => return c
      | _ => fail "expected literal"
  else if Ahead.keywords ["ref", "mut", "self"] ts || Ahead.ident ts then g.identPattern
  else if Ahead.op "&" ts then
    let amp ← op "&"
    let mutability ← keyword? "mut"
    return .node .referencePat (amp :: mutability ++ [← g .pattern])
  else if Ahead.group .paren ts then
    let (pos, parts) ← inGroup .paren g.patternList
    let shape : Shape := if isSinglePattern parts then .parenPat else .tuplePat
    return .node shape [.group pos .paren parts]
  else if Ahead.group .bracket ts then
    return .node .slicePat [← groupOf .bracket g.slicePatterns]
  else if Ahead.op ".." ts && !Ahead.op "..." ts then
    let dots ← rangeDots
    let stop ← g.rangeBound
    if !stop.isEmpty then return .node .rangePat (dots :: stop)
    else if isClosed dots then fail "expected range upper bound"
    else return .node .restPat [dots]
  else
    fail ("expected one of: identifier, `::`, `<`, `_`, literal, `const`, `ref`, `mut`, `&`, " ++
      "parentheses, square brackets, `..`")

end FieldGraft.Grammar

import FieldGraft.Source.Grammar.Expressions

/-!
# Grammar: items

`itemRule` reads one item. Declarations, imports, inline modules and `impl` blocks are taken apart;
the remaining items are nodes. An item that is well-formed only as far as its tokens go, such as a
function without a body outside a trait, is kept verbatim.
-/

namespace FieldGraft.Grammar

open FieldGraft.Parser

variable (g : Grammar)

/-! ### Visibility and functions -/

/-- What may stand between the parentheses of `pub(…)`. -/
def restriction : Parser (List Code) := do
  let ts ← look
  if Ahead.keywords ["crate", "self", "super"] ts then
    let w ← anyIdent
    if ← atEnd then return [word w] else fail "unexpected token"
  else
    let kw ← keyword "in"
    let (global, names) ← plainPath
    let root := if global then some {} else none
    return [kw, .path (.named root (names.map (fun w => .mk w [])))]

/-- A visibility, possibly the inherited one. -/
def visibility : Parser Visibility := do
  if !Ahead.keyword "pub" (← look) then return .inherited
  let _ ← keyword "pub"
  if Ahead.group .paren (← look) then
    match ← attempt? (inGroup .paren restriction) with
    | some (_, parts) => return .restricted parts
    | none => return .exported
  else return .exported

/-- A visibility as code. -/
def visibilityCode : Parser (List Code) := do
  return (← visibility).trees.map Code.tree

/-- A receiver parameter. A path that starts with `self` is none. -/
def receiver : Parser (List Code) := do
  let reference ← if Ahead.op "&" (← look) then do
      let amp ← op "&"
      pure (amp :: (← lifetime?))
    else pure []
  let mutability ← keyword? "mut"
  let self ← keyword "self"
  if Ahead.op "::" (← look) then fail "expected method receiver"
  let typed ← if reference.isEmpty && Ahead.op ":" (← look) then do
      let colon ← op ":"
      pure [colon, ← g.type]
    else pure []
  return reference ++ mutability ++ self :: typed

/-- A function parameter. `isFirst` says whether a receiver may stand here. A generic type may stand
for a parameter without a name. -/
def param (isFirst : Bool) : Parser Param := do
  let attrs ← g.outerAttributeCode
  if Ahead.op "..." (← look) then return .mk .variadic (attrs ++ [← op "..."])
  match ← attempt? g.receiver with
  | some parts =>
    if isFirst then return .mk .receiver (attrs ++ parts)
    else failWith "unexpected method receiver"
  | none =>
    let ts ← look
    if Ahead.ident ts && Ahead.op "<" (ts.drop 1) then
      let pos := (ts.head?.map TokenTree.pos).getD {}
      let wild : Code := .node .wildPat [.tree (.leaf pos (.ident "_"))]
      return .mk .typed (attrs ++ [wild, .op pos ":", ← g.type])
    let pat ← g .pattern
    let colon ← op ":"
    if Ahead.op "..." (← look) then
      return .mk .variadic (attrs ++ [pat, colon, ← op "..."])
    return .mk .typed (attrs ++ [pat, colon, ← g.type])

/-- Function parameters, and whether a comma ends them. -/
def params : Parser (List Param × Bool) := do
  let (read, trailing) ← loop (([] : List Param), false) fun (done, trailing) => do
    if ← atEnd then return ((done, trailing), false)
    let p ← g.param done.isEmpty
    let isVariadic := match p with
      | .mk role _ => role == .variadic
    if ← atEnd then return ((p :: done, false), false)
    let _ ← op ","
    return ((p :: done, true), !isVariadic)
  return (read.reverse, trailing)

/-- The marks before `fn`, and `fn`; one of them may be `safe` iff `safeAllowed`. -/
def fnLead (safeAllowed : Bool) : Parser (List Code) := do
  let constness ← keyword? "const"
  let asyncness ← keyword? "async"
  let safety ← keyword? "unsafe"
  let safe ← if safeAllowed && safety.isEmpty then keyword? "safe" else pure []
  let abi ← abi?
  let kw ← keyword "fn"
  return constness ++ asyncness ++ safety ++ safe ++ abi ++ [kw]

/-- Whether a function starts here. -/
def fnAhead (safeAllowed : Bool) : Parser Bool :=
  succeeds (fnLead safeAllowed)

/-- A function; its body is a semicolon only if that is what follows. -/
def function (safeAllowed : Bool) (lead : List Code) : Parser Code := do
  let marks ← fnLead safeAllowed
  let name ← ident
  let generics ← g.generics?
  let (_, params, trailing) ← inGroup .paren g.params
  let output ← g.returnType true
  let clause ← g.whereClause?
  let body ← if Ahead.op ";" (← look) then op ";" else (do return .node .block [← g.block true])
  return .fn (lead ++ marks) name generics params trailing output (clause ++ [body])

/-- Whether a function has a body. -/
def hasBody : Code → Bool
  | .fn _ _ _ _ _ _ tail =>
    match tail.getLast? with
    | some (.op _ _) => false
    | _ => true
  | _ => true

/-- Whether a function is marked `safe`. -/
def isMarkedSafe : Code → Bool
  | .fn lead _ _ _ _ _ _ => lead.any fun c => match c with
    | .tree (.leaf _ (.ident t)) => t == "safe"
    | _ => false
  | _ => false

/-! ### Declarations -/

/-- The name of a field, `:` and its type. A field `_` may have fields in braces for a type, which
are kept as written. -/
def nameAndType : Parser (Word × Code × Code) := do
  let unnamed := Ahead.keyword "_" (← look)
  let name ← if unnamed then anyIdent else ident
  let colon ← op ":"
  let ts ← look
  if unnamed && (Ahead.keyword "struct" ts ||
      Ahead.keyword "union" ts && Ahead.group .brace (ts.drop 1)) then
    let _ ← anyIdent
    let _ ← g .fields
    return (name, colon, ← verbatimSince ts)
  else return (name, colon, ← g.type)

/-- A named field. -/
def namedField : Parser FieldDef := do
  let attrs ← g.outerAttributes
  let vis ← visibility
  let (name, _, ty) ← g.nameAndType
  return .mk attrs vis name ty

/-- A field of a tuple struct. -/
def tupleField : Parser Code := do
  let attrs ← g.outerAttributeCode
  let vis ← visibilityCode
  let ty ← g.type
  return .node .tupleField (attrs ++ vis ++ [ty])

/-- The fields in parentheses. -/
def tupleFields : Parser Code :=
  groupOf .paren (terminatedCode g.tupleField)

/-- A field of an enumeration variant or union, as code in which nested literals are kept. -/
def codeField : Parser Code := do
  let attrs ← g.outerAttributeCode
  let vis ← visibilityCode
  let (name, colon, ty) ← g.nameAndType
  return .node .tupleField (attrs ++ vis ++ [word name, colon, ty])

/-- Named fields in braces, as code. -/
def codeFields : Parser Code :=
  groupOf .brace (terminatedCode g.codeField)

/-- The body of a struct. -/
def structBody : Parser StructBody := do
  let clause ← g.whereClause?
  let ts ← look
  if clause.isEmpty && Ahead.group .paren ts then
    let fields ← g.tupleFields
    let clause ← g.whereClause?
    if Ahead.op ";" (← look) then
      let _ ← op ";"
      return .tuple fields clause
    else if clause.isEmpty then fail "expected `where` or `;`"
    else fail "expected `;`"
  else if Ahead.group .brace ts then
    let (_, fields, trailing) ← inGroup .brace (terminated g.namedField)
    return .named clause fields trailing
  else if Ahead.op ";" ts then
    let _ ← op ";"
    return .unit clause
  else if clause.isEmpty then fail "expected one of: `where`, parentheses, curly braces, `;`"
  else fail "expected curly braces or `;`"

/-- A struct declaration. -/
def structItem (attrs : List Attribute) : Parser Item := do
  let vis ← visibility
  let _ ← keyword "struct"
  let name ← ident
  let generics ← g.generics?
  return .struct attrs vis name generics (← g.structBody)

/-- A variant of an enumeration. A visibility on it has no meaning and is dropped. -/
def variant : Parser Code := do
  let attrs ← g.outerAttributeCode
  let _ ← visibility
  let name ← ident
  let ts ← look
  let fields ← if Ahead.group .brace ts then (do return [← g.codeFields])
    else if Ahead.group .paren ts then (do return [← g.tupleFields])
    else pure []
  let value ← if Ahead.op "=" (← look) then do
      let eq ← op "="
      pure [eq, ← g.expr]
    else pure []
  return .node .variant (attrs ++ word name :: fields ++ value)

/-- An enumeration. -/
def enumItem (attrs : List Attribute) : Parser Item := do
  let vis ← visibilityCode
  let kw ← keyword "enum"
  let name ← ident
  let generics ← g.generics?
  let clause ← g.whereClause?
  let body ← groupOf .brace (terminatedCode g.variant)
  return .nominal .enumeration attrs (vis ++ [kw]) name (generics ++ clause ++ [body])

/-- A union. -/
def unionItem (attrs : List Attribute) : Parser Item := do
  let vis ← visibilityCode
  let kw ← keyword "union"
  let name ← ident
  let generics ← g.generics?
  let clause ← g.whereClause?
  return .nominal .union attrs (vis ++ [kw]) name (generics ++ clause ++ [← g.codeFields])

/-! ### Members of traits, `impl` blocks and foreign blocks -/

/-- A macro call as an item or member; an item may give it a name. -/
def macroItem (nameAllowed : Bool) (attrs : List Code) : Parser Code := do
  let start ← look
  let (global, names) ← plainPath
  let root := if global then some ((start.head?.map TokenTree.pos).getD {}) else none
  let bang ← op "!"
  let ts ← look
  let name ← if nameAllowed && (Ahead.ident ts || Ahead.keyword "try" ts) then
      (do return [word (← anyIdent)])
    else pure []
  let (d, body) ← rawGroup
  let semi ← if d == .brace then pure [] else (do return [← op ";"])
  return .node .macroItem
    (attrs ++ .path (.named root (names.map (fun w => .mk w []))) :: bang :: name ++ body :: semi)

/-- A macro call can start here. -/
def macroStart (ts : List TokenTree) : Bool :=
  Ahead.pathStart ts && !Ahead.keyword "Self" ts

/-- The name of a constant, which may be `_`. -/
def constName : Parser Word := do
  let ts ← look
  if Ahead.ident ts || Ahead.keyword "_" ts then anyIdent else fail "expected identifier or `_`"

/-- A constant as declared. -/
structure ConstDecl where
  parts : List Code
  hasValue : Bool
  /-- It has neither generic parameters nor a `where` clause. -/
  isPlain : Bool

/-- A constant. -/
def constant (lead : List Code) : Parser ConstDecl := do
  let kw ← keyword "const"
  let name ← constName
  let generics ← g.generics?
  let colon ← op ":"
  let ty ← g.type
  let value ← if Ahead.op "=" (← look) then do
      let eq ← op "="
      pure [eq, ← g.expr]
    else pure []
  let clause ← g.whereClause?
  let semi ← op ";"
  return {
    parts := lead ++ kw :: word name :: generics ++ colon :: ty :: value ++ clause ++ [semi]
    hasValue := !value.isEmpty
    isPlain := generics.isEmpty && clause.isEmpty }

/-- Where the `where` clause of a type declaration may stand. -/
inductive ClausePlace where
  | beforeType
  | afterType
  | either
deriving DecidableEq

/-- A type declaration. -/
structure TypeDecl where
  parts : List Code
  /-- A colon follows the name, with or without bounds. -/
  isBounded : Bool
  /-- It says which type it is. -/
  isDefined : Bool

/-- The declaration of a type by name, with its bounds, type and clause. -/
def typeDecl (place : ClausePlace) (lead : List Code) : Parser TypeDecl := do
  let kw ← keyword "type"
  let name ← ident
  let generics ← g.generics?
  let isBounded := Ahead.op ":" (← look)
  let bounds ← colonBounds? (g (.bound .declaration))
    (fun ts => Ahead.keyword "where" ts || Ahead.op "=" ts || Ahead.op ";" ts)
  let early ← if place = .afterType then pure [] else g.whereClause?
  let ty ← if Ahead.op "=" (← look) then do
      let eq ← op "="
      pure [eq, ← g.type]
    else pure []
  let late ← if place = .beforeType || !early.isEmpty then pure [] else g.whereClause?
  let semi ← op ";"
  return {
    parts := lead ++ kw :: word name :: generics ++ bounds ++ early ++ ty ++ late ++ [semi]
    isBounded
    isDefined := !ty.isEmpty }

/-- The member `c`, or what was read since `start` if it has no form of its own. -/
def knownOr (start : List TokenTree) (known : Bool) (c : Code) : Parser Code :=
  if known then pure c else verbatimSince start

/-- What can start a member, as the error text lists it. -/
def memberStarts : String :=
  "expected one of: `fn`, `const`, `type`, identifier, `self`, `super`, `crate`, `::`"

/-- A member of a trait. -/
def traitMember : Parser Code := do
  let start ← look
  let attrs ← g.outerAttributeCode
  let vis ← visibilityCode
  let defaultness ← keyword? "default"
  let lead := attrs ++ vis ++ defaultness
  let isBare := vis.isEmpty && defaultness.isEmpty
  let ts ← look
  if ← fnAhead false then knownOr start isBare (← g.function false lead)
  else if Ahead.keyword "const" ts then
    let decl ← g.constant lead
    knownOr start (isBare && decl.isPlain) (.node .traitConst decl.parts)
  else if Ahead.keyword "type" ts then
    let decl ← g.typeDecl .afterType lead
    knownOr start isBare (.node .traitType decl.parts)
  else if isBare && macroStart ts then macroItem false lead
  else fail memberStarts

/-- A member of an `impl` block. -/
def implMember : Parser Code := do
  let start ← look
  let attrs ← g.outerAttributeCode
  let vis ← visibilityCode
  let isDefault := !Ahead.op "!" ((← look).drop 1)
  let defaultness ← if isDefault then keyword? "default" else pure []
  let lead := attrs ++ vis ++ defaultness
  let ts ← look
  if ← fnAhead false then
    let f ← g.function false lead
    knownOr start (hasBody f) f
  else if Ahead.keyword "const" ts then
    let decl ← g.constant lead
    knownOr start (decl.hasValue && decl.isPlain) (.node .traitConst decl.parts)
  else if Ahead.keyword "type" ts then
    let decl ← g.typeDecl .afterType lead
    knownOr start (decl.isDefined && !decl.isBounded) (.node .traitType decl.parts)
  else if vis.isEmpty && defaultness.isEmpty && macroStart ts then macroItem false lead
  else fail memberStarts

/-- A static of a foreign block. -/
def foreignStatic (start : List TokenTree) (lead : List Code) : Parser Code := do
  let isUnsafe ← keyword? "unsafe"
  let isSafe ← if isUnsafe.isEmpty then keyword? "safe" else pure []
  let kw ← keyword "static"
  let mutability ← keyword? "mut"
  let name ← ident
  let colon ← op ":"
  let ty ← g.type
  let hasValue := Ahead.op "=" (← look)
  if hasValue then
    let _ ← op "="
    let _ ← g.expr
  let semi ← op ";"
  knownOr start (isUnsafe.isEmpty && isSafe.isEmpty && !hasValue)
    (.node .staticItem (lead ++ kw :: mutability ++ [word name, colon, ty, semi]))

/-- A member of a foreign block. -/
def foreignMember : Parser Code := do
  let start ← look
  let attrs ← g.outerAttributeCode
  let vis ← visibilityCode
  let lead := attrs ++ vis
  let ts ← look
  if ← fnAhead true then
    let f ← g.function true lead
    knownOr start (!hasBody f && !isMarkedSafe f) f
  else if Ahead.keyword "static" ts ||
      Ahead.keywords ["unsafe", "safe"] ts && Ahead.keyword "static" (ts.drop 1) then
    g.foreignStatic start lead
  else if Ahead.keyword "type" ts then
    let decl ← g.typeDecl .either lead
    knownOr start (!decl.isDefined && !decl.isBounded) (.node .typeAlias decl.parts)
  else if vis.isEmpty && macroStart ts then macroItem false lead
  else fail memberStarts

/-! ### Traits and `impl` blocks -/

/-- The body of a trait in braces, behind the attributes at its start. -/
def traitBody : Parser (List Attribute × Code) := do
  let (pos, inner, members) ← inGroup .brace do
    let inner ← g.innerAttributes
    let members ← untilEnd g.traitMember
    return (inner, members)
  return (inner, .group pos .brace members)

/-- A trait or trait alias. -/
def traitItem (attrs : List Attribute) : Parser Item := do
  let vis ← visibilityCode
  let safety ← keyword? "unsafe"
  let auto ← keyword? "auto"
  let kw ← keyword "trait"
  let name ← ident
  let generics ← g.generics?
  let lead := vis ++ safety ++ auto ++ [kw]
  let ts ← look
  if safety.isEmpty && auto.isEmpty && Ahead.op "=" ts then
    let eq ← op "="
    let bs ← boundsUntil (g (.bound .objectType))
      (fun ts => Ahead.keyword "where" ts || Ahead.op ";" ts)
    let clause ← g.whereClause?
    let semi ← op ";"
    return .other .traitAlias
      (attrs.map Code.attr ++ lead ++ word name :: generics ++ eq :: bs ++ clause ++ [semi])
  else
    let bs ← colonBounds? (g (.bound .declaration))
      (fun ts => Ahead.keyword "where" ts || Ahead.group .brace ts)
    let clause ← g.whereClause?
    let (inner, body) ← g.traitBody
    return .nominal .trait (attrs ++ inner) lead name (generics ++ bs ++ clause ++ [body])

/-- The trait that a type in front of `for` names. -/
def traitPath? : Code → Option Path
  | .path (.named root segments) => some (.named root segments)
  | _ => none

/-- An `impl` block; all read since `start` is kept as written if it has a visibility, is marked
`const` or does not name its trait by a path. -/
def implItem (start : List TokenTree) (attrs : List Attribute) : Parser Item := do
  let vis ← visibility
  let defaultness ← keyword? "default"
  let safety ← keyword? "unsafe"
  let kw ← keyword "impl"
  let generics ← if startsGenerics (← look) then g.generics? else pure []
  let ts ← look
  let isConst := Ahead.keyword "const" ts || (Ahead.op "?" ts && Ahead.keyword "const" (ts.drop 1))
  if isConst then
    let _ ← op? "?"
    let _ ← keyword "const"
  let ts ← look
  let bang ← if Ahead.op "!" ts && !Ahead.group .brace (ts.drop 1) then op? "!" else pure []
  let first ← g.type
  let isFor := Ahead.keyword "for" (← look)
  let selfTy ← if isFor then do
      let _ ← keyword "for"
      g.type
    else if !bang.isEmpty then failWith "inherent impls cannot be negative"
    else pure first
  let clause ← g.whereClause?
  let (_, inner, members) ← inGroup .brace do
    let inner ← g.innerAttributes
    let members ← untilEnd g.implMember
    return (inner, members)
  let lead := defaultness ++ safety ++ kw :: generics
  let trait : Option TraitRef :=
    if isFor then (traitPath? first).map (TraitRef.of (!bang.isEmpty)) else some .inherent
  match vis, isConst, trait with
  | .inherited, false, some t => return .impl attrs lead t selfTy clause inner members
  | _, _, _ => return .other .verbatim [← verbatimSince start]

/-! ### Imports -/

/-- The name that a renaming import binds. -/
def renameTarget : Parser Word := do
  let ts ← look
  if Ahead.ident ts || Ahead.keyword "_" ts then anyIdent
  else fail "expected identifier or underscore"

/-- An import tree, at most `depth` levels deep. It has no value if a path inside a group starts
with `::`. -/
def useTree : (depth : Nat) → (rootAllowed : Bool) → Parser (Option UseTree)
  | 0, _ => fail "expected identifier"
  | depth + 1, rootAllowed => do
    let ts ← look
    if Ahead.ident ts || Ahead.keywords ["self", "super", "crate", "try"] ts then
      let name ← anyIdent
      let ts ← look
      if Ahead.op "::" ts then
        let _ ← op "::"
        return (← useTree depth false).map (UseTree.path name)
      else if Ahead.keyword "as" ts then
        let _ ← keyword "as"
        return some (.rename name (← renameTarget))
      else return some (.name name)
    else if Ahead.op "*" ts then
      let _ ← op "*"
      return some .glob
    else if Ahead.group .brace ts then
      let (_, trees, trailing) ← inGroup .brace (terminated do
        let root ← if rootAllowed then op? "::" else pure []
        let tree ← useTree depth (rootAllowed && root.isEmpty)
        return if root.isEmpty then tree else none)
      return (trees.mapM id).map (fun ts => UseTree.group ts trailing)
    else fail "expected one of: identifier, `self`, `super`, `crate`, `try`, `*`, curly braces"

/-- An import; all read since `start` is kept as written if its tree has no value. -/
def useItem (start : List TokenTree) (attrs : List Attribute) : Parser Item := do
  let vis ← visibility
  let _ ← keyword "use"
  let root ← op? "::"
  let tree ← useTree ((TokenTree.sizeList (← look)) + 1) root.isEmpty
  let _ ← op ";"
  match tree with
  | some t => return .use attrs vis (!root.isEmpty) t
  | none => return .other .verbatim [← verbatimSince start]

/-! ### Modules and the rest -/

/-- A module, inline or not. -/
def moduleItem (attrs : List Attribute) : Parser Item := do
  let vis ← visibilityCode
  let safety ← keyword? "unsafe"
  let kw ← keyword "mod"
  let name ← if Ahead.keyword "try" (← look) then anyIdent else ident
  let lead := vis ++ safety ++ [kw]
  let ts ← look
  if Ahead.op ";" ts then
    let semi ← op ";"
    return .other .moduleDecl (attrs.map Code.attr ++ lead ++ [word name, semi])
  else if Ahead.group .brace ts then
    let (_, inner, items) ← inGroup .brace do
      let inner ← g.innerAttributes
      let items ← untilEnd (g .item)
      return (inner, items)
    return .module attrs lead name inner (items.filterMap fun c => match c with
      | .item i => some i
      | _ => none)
  else fail "expected `;` or curly braces"

/-- A static, and whether it has both a type and a value. -/
def staticItem (lead : List Code) : Parser (List Code × Bool) := do
  let kw ← keyword "static"
  let mutability ← keyword? "mut"
  let name ← ident
  let typed ← if Ahead.op "=" (← look) then pure [] else do
      let colon ← op ":"
      pure [colon, ← g.type]
  let value ← if !typed.isEmpty && Ahead.op ";" (← look) then pure [] else do
      let eq ← op "="
      pure [eq, ← g.expr]
  let semi ← op ";"
  return (lead ++ kw :: mutability ++ word name :: typed ++ value ++ [semi],
    !typed.isEmpty && !value.isEmpty)

/-- A foreign block. -/
def foreignMod (attrs : List Code) : Parser Item := do
  let safety ← keyword? "unsafe"
  let abi ← abi?
  let body ← groupOf .brace do
    let inner ← g.innerAttributeCode
    return inner ++ (← untilEnd g.foreignMember)
  return .other .foreignMod (attrs ++ safety ++ abi ++ [body])

/-- An external crate. -/
def externCrate (attrs : List Code) : Parser Item := do
  let vis ← visibilityCode
  let ext ← keyword "extern"
  let kw ← keyword "crate"
  let name ← if Ahead.keyword "self" (← look) then anyIdent else ident
  let rename ← if Ahead.keyword "as" (← look) then do
      let as ← keyword "as"
      pure [as, word (← renameTarget)]
    else pure []
  let semi ← op ";"
  return .other .externCrate (attrs ++ vis ++ [ext, kw, word name] ++ rename ++ [semi])

/-- A declarative macro in its second form. -/
def macroDeclaration : Parser Unit := do
  let _ ← visibility
  let _ ← keyword "macro"
  let _ ← ident
  let hasArgs := Ahead.group .paren (← look)
  if hasArgs then
    let _ ← rawGroup
  if Ahead.group .brace (← look) then
    let _ ← rawGroup
  else if hasArgs then fail "expected curly braces"
  else fail "expected parentheses or curly braces"

/-- The trees after a visibility. -/
def afterVisibility : Parser (List TokenTree) := do
  match visibility.run (← get) with
  | .ok (_, c) => return c.trees
  | .error _ => look

/-- The item `i`, or what was read since `start` if it has no form of its own. -/
def knownItemOr (start : List TokenTree) (known : Bool) (i : Item) : Parser Item :=
  if known then pure i else do return .other .verbatim [← verbatimSince start]

/-- An item, all of which is read since `start`, behind its attributes. -/
def itemAfter (start : List TokenTree) (attrs : List Attribute) : Parser Item := do
  let attrCode := attrs.map Code.attr
  let ts ← afterVisibility
  let second := ts.drop 1
  let isInherited := ts.length == (← look).length
  let startsFn ← succeeds do
    let _ ← visibility
    fnLead false
  if startsFn then
    let vis ← visibilityCode
    let f ← g.function false (attrCode ++ vis)
    knownItemOr start (hasBody f) (.other .fnItem [f])
  else if Ahead.keyword "extern" ts then
    if Ahead.keyword "crate" second then externCrate attrCode
    else if Ahead.group .brace second || Ahead.stringLiteral second then g.foreignMod attrCode
    else fail "expected one of: `crate`, curly braces, string literal"
  else if Ahead.keyword "use" ts then useItem start attrs
  else if Ahead.keyword "static" ts then
    let vis ← visibilityCode
    let (parts, known) ← g.staticItem (attrCode ++ vis)
    knownItemOr start known (.other .staticItem parts)
  else if Ahead.keyword "const" ts then
    let vis ← visibilityCode
    let decl ← g.constant (attrCode ++ vis)
    knownItemOr start (decl.hasValue && decl.isPlain) (.other .constItem decl.parts)
  else if Ahead.keyword "unsafe" ts then
    if Ahead.keyword "trait" second ||
        Ahead.keyword "auto" second && Ahead.keyword "trait" (ts.drop 2) then g.traitItem attrs
    else if Ahead.keyword "impl" second then g.implItem start attrs
    else if Ahead.keyword "extern" second then g.foreignMod attrCode
    else if Ahead.keyword "mod" second then g.moduleItem attrs
    else fail "expected one of: `trait`, `auto`, `impl`, `extern`, `mod`"
  else if Ahead.keyword "mod" ts then g.moduleItem attrs
  else if Ahead.keyword "type" ts then
    let vis ← visibilityCode
    let decl ← g.typeDecl .beforeType (attrCode ++ vis)
    knownItemOr start (decl.isDefined && !decl.isBounded) (.other .typeAlias decl.parts)
  else if Ahead.keyword "struct" ts then g.structItem attrs
  else if Ahead.keyword "enum" ts then g.enumItem attrs
  else if Ahead.keyword "union" ts && Ahead.ident second then g.unionItem attrs
  else if Ahead.keyword "trait" ts || Ahead.keyword "auto" ts && Ahead.keyword "trait" second then
    g.traitItem attrs
  else if Ahead.keyword "impl" ts || Ahead.keyword "default" ts && !Ahead.op "!" second then
    g.implItem start attrs
  else if Ahead.keyword "macro" ts then
    macroDeclaration
    return .other .verbatim [← verbatimSince start]
  else if isInherited && macroStart ts then
    match ← macroItem true attrCode with
    | .node s parts => return .other s parts
    | c => return .other .macroItem [c]
  else fail ("expected one of: `fn`, `extern`, `use`, `static`, `const`, `unsafe`, `mod`, `type`, " ++
      "`struct`, `enum`, `union`, `trait`, `auto`, `impl`, `default`, `macro`, identifier, " ++
      "`self`, `super`, `crate`, `::`")

/-- An item. -/
def itemRule : Parser Code := do
  let start ← look
  let attrs ← g.outerAttributes
  return .item (← g.itemAfter start attrs)

end FieldGraft.Grammar

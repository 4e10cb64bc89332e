import FieldGraft.Layout.Doc
import FieldGraft.Source.Token

/-!
# Layout of unread tokens

The arguments of attributes and the bodies of macro calls are token lists without a grammar of their
own. Where blanks stand between their tokens follows from each token and the one before it.
-/

namespace FieldGraft.Layout

open Doc

/-! ### Attribute arguments -/

/-- What stands in front of the next token of an attribute. -/
inductive AttributeState where
  | word
  | punct
  | lastComma
deriving DecidableEq, Repr

/-- A sequence of documents, and what ends it. -/
abbrev AttributeDocs := List Doc × AttributeState

mutual

/-- The tokens of an attribute after `state`. -/
def attributeTokens (state : AttributeState) : List TokenTree → AttributeDocs
  | [] => ([], state)
  | t :: ts =>
    let (docs, next) := attributeToken state ts.isEmpty t
    let (rest, last) := attributeTokens next ts
    (docs ++ rest, last)

/-- One token of an attribute. -/
def attributeToken (state : AttributeState) (isLast : Bool) : TokenTree → AttributeDocs
  | .leaf _ (.punct c _) =>
    if c = ',' && isLast then ([Doc.lastComma 0], .lastComma)
    else
      let lead := if state = .word && c = '=' then " " else ""
      let tail := if c = '=' then " " else ""
      (text (lead ++ c.toString ++ tail) :: (if c = ',' then [space] else []), .punct)
  | .leaf _ (.lifetime s) => ([text s], .word)
  | .leaf _ t => ((if state = .word then [space] else []) ++ [text t.text], .word)
  | .group _ .paren body =>
    let (docs, last) := attributeTokens .punct body
    let close := if last = .lastComma then [] else [zero]
    ([text "(", consistent step (shiftLast (-step) (zero :: docs ++ close)), text ")"], .punct)
  | .group _ d body =>
    let (docs, _) := attributeTokens .punct body
    (text d.opening.toString :: docs ++ [text d.closing.toString], .punct)

end

/-! ### Macro bodies -/

/-- What stands in front of the next token of a macro body. -/
inductive MacroState where
  | start | dollar | dollarIdent | dollarIdentColon | dollarParen | dollarParenSep
  | pound | poundBang | dot | colon | colons | ident | identBang | delim | other
deriving DecidableEq, Repr

/-- The words that a macro body keeps apart from a bracket after them. -/
def macroKeywords : List String :=
  ["as", "async", "await", "box", "break", "const", "continue", "crate", "dyn", "else", "enum",
    "extern", "fn", "for", "if", "impl", "in", "let", "loop", "macro", "match", "mod", "move",
    "mut", "pub", "ref", "return", "static", "struct", "trait", "type", "unsafe", "use", "where",
    "while", "yield"]

/-- Whether a space stands before a token, and the state after it. In the pattern of a macro rule
`matcher` is set. A literal that ends with a dot is no name that a bracket could follow. -/
def macroStep (matcher : Bool) (state : MacroState) (t : TokenTree) : Bool × MacroState :=
  let general : Bool × MacroState :=
    match t with
    | .group _ .brace _ => (true, .other)
    | .group _ _ _ => (true, .delim)
    | .leaf _ (.ident s) =>
      if macroKeywords.contains s then (true, .other)
      else (state != .dot && state != .colons, .ident)
    | .leaf _ (.literal s) =>
      (state != .dot, if s.toList.getLast? = some '.' then .other else .ident)
    | .leaf _ (.lifetime _) => (true, .ident)
    | .leaf _ (.punct c joint) =>
      if c = ',' || c = ';' then (false, .other)
      else if c = '.' && !matcher then (state != .ident && state != .delim, .dot)
      else if c = ':' && joint then (state != .ident, .colon)
      else if c = '$' then (true, .dollar)
      else if c = '#' then (true, .pound)
      else (true, .other)
  match state, t with
  | .dollar, .leaf _ (.ident s) =>
    (false, if matcher then .dollarIdent else if s = "crate" then .ident else .other)
  | .dollarIdent, .leaf _ (.punct ':' false) => (false, .dollarIdentColon)
  | .dollarIdentColon, .leaf _ (.ident _) => (false, .other)
  | .dollarParen, .leaf _ (.punct c joint) =>
    if joint then (false, .dollarParen)
    else if c = '+' || c = '*' || c = '?' then (false, .other)
    else (false, .dollarParenSep)
  | .dollarParen, .leaf _ (.ident _) => (false, .dollarParenSep)
  | .dollarParen, .leaf _ (.literal _) => (false, .dollarParenSep)
  | .dollarParenSep, .leaf _ (.punct '+' _) => (false, .other)
  | .dollarParenSep, .leaf _ (.punct '*' _) => (false, .other)
  | .pound, .leaf _ (.punct '!' _) => (false, .poundBang)
  | .dollar, .group _ .paren _ => (false, .dollarParen)
  | .pound, .group _ .bracket _ => (false, .other)
  | .poundBang, .group _ .bracket _ => (false, .other)
  | .ident, .group _ .paren _ => (false, .delim)
  | .ident, .group _ .bracket _ => (false, .delim)
  | .ident, .leaf _ (.punct '!' false) => (false, .identBang)
  | .identBang, .group _ .paren _ => (false, .other)
  | .identBang, .group _ .bracket _ => (false, .other)
  | .colon, .leaf _ (.punct ':' _) => (false, .colons)
  | _, _ => general

/-- A lifetime counts as a quote with a name glued to it. -/
def lifetimeStep (matcher : Bool) (state : MacroState) (name : String) : Bool × MacroState :=
  let (spaced, next) := macroStep matcher state (.leaf {} (.punct '\'' true))
  (spaced, (macroStep matcher next (.leaf {} (.ident name))).2)

/-- Whether the token after this one follows it directly. -/
def isJoint : TokenTree → Bool
  | .leaf _ (.punct c joint) => joint || c = '$'
  | _ => false

/-- Whether a token is a dot. -/
def isDot : TokenTree → Bool
  | .leaf _ (.punct c _) => c = '.'
  | _ => false

mutual

/-- The tokens of a macro body; `joint` says that the first follows directly. -/
def macroTokens (matcher : Bool) (state : MacroState) (joint : Bool) : List TokenTree → List Doc
  | [] => []
  | t :: ts =>
    let (spaced, next) := match t with
      | .leaf _ (.lifetime s) => lifetimeStep matcher state (String.ofList (s.toList.drop 1))
      | t => macroStep matcher state t
    let lead := if joint then [] else if spaced then [space] else if isDot t then [zero] else []
    lead ++ macroToken matcher t ++ macroTokens matcher next (isJoint t) ts

/-- One token of a macro body. -/
def macroToken (matcher : Bool) : TokenTree → List Doc
  | .leaf _ t => [text t.text]
  | .group _ d body =>
    let docs := macroTokens matcher .start true body
    let pad := if d = .brace && !docs.isEmpty then [space] else []
    text d.opening.toString :: pad ++ docs ++ pad ++ [text d.closing.toString]

end

/-- The body of a macro call or the pattern of a rule, in its delimiters. -/
def macroGroup (matcher : Bool) (opening closing : String) (edge : Doc) (body : List TokenTree) :
    List Doc :=
  if body.isEmpty then [text opening, text closing]
  else
    [text opening,
      consistent step
        (shiftLast (-step) [edge, inconsistent 0 (macroTokens matcher .start true body), edge]),
      text closing]

/-- The delimited body of a macro call. -/
def macroBody : TokenTree → List Doc
  | .group _ .brace body => macroGroup false " \x7b" "\x7d" hard body
  | .group _ d body => macroGroup false d.opening.toString d.closing.toString zero body
  | t => [text t.text]

/-- The pattern of a macro rule. -/
def macroPattern (d : Delimiter) (pattern : List TokenTree) : List Doc :=
  macroGroup true d.opening.toString d.closing.toString zero pattern

/-- The rules of a macro definition. The last one may break off. -/
def macroRules : List TokenTree → List Doc
  | .group _ d pattern :: .leaf _ (.punct '=' _) :: .leaf _ (.punct '>' _) ::
      .group _ _ body :: rest =>
    let more := match rest with
      | .leaf _ (.punct ';' _) :: more => macroRules more
      | _ => []
    macroPattern d pattern ++ [text " =>", text " \x7b", never] ++
      (macroGroup false "" "" hard body) ++ [text "\x7d", text ";", hard] ++ more
  | [.group _ d pattern, .leaf _ (.punct '=' _), .leaf _ (.punct '>' _)] =>
    macroPattern d pattern ++ [text " =>", hard]
  | [.group _ d pattern, .leaf _ (.punct '=' _)] => macroPattern d pattern ++ [text " =", hard]
  | [.group _ d pattern] => macroPattern d pattern ++ [hard]
  | _ => []

end FieldGraft.Layout

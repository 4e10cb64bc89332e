import FieldGraft.Layout.Tokens
import FieldGraft.Source.Code
import FieldGraft.Source.Literal
import FieldGraft.Text.Search

/-!
# Layout: goals, attributes, paths and bounds

Layout is a function from goals to documents. As with the grammar, each rule is written against an
arbitrary layout `l` for the code nested in it, and `FieldGraft.Layout` ties the knot.

A rule never looks at the commas of its source: it takes the members of a list and sets commas of
its own.
-/

namespace FieldGraft

/-- What a piece of code is laid out as. -/
inductive LayoutGoal where
  /-- An expression, at the start of a line or not. -/
  | expr (lineStart : Bool)
  /-- The front of a chain of member accesses and calls. -/
  | link (lineStart : Bool)
  | type
  | bound
  | pattern
  /-- A statement, the last one of its block or not. -/
  | stmt (isLast : Bool)
  | item
deriving DecidableEq, Repr

/-- How each piece of code is laid out. -/
abbrev Layout := LayoutGoal → Code → List Doc

namespace Layout

open Doc

/-! ### Words -/

/-- Whether code is the given operator. -/
def isOp (s : String) : Code → Bool
  | .op _ t => s == t
  | _ => false

/-- Whether code is the given keyword. -/
def isWord (s : String) : Code → Bool
  | .tree (.leaf _ (.ident t)) => s == t
  | _ => false

/-- The members of a list, without the commas. -/
def members (parts : List Code) : List Code :=
  parts.filter (fun c => !isOp "," c)

/-- The tokens of code without blanks. -/
def tightText (c : Code) : String :=
  String.join (TokenTree.wordsList c.trees)

/-- The parts of a delimited list. -/
def groupParts : Code → List Code
  | .group _ _ parts => parts
  | _ => []

/-- Whether code is an inner attribute. -/
def isInnerAttribute : Code → Bool
  | .attr (.mk inner _ _ _) => inner
  | _ => false

/-- The attributes in front of a construct, and the construct. -/
def splitAttributes (parts : List Code) : List Code × List Code :=
  (parts.takeWhile Code.isAttribute, parts.dropWhile Code.isAttribute)

/-- The place in parentheses after `pub`. A single keyword needs no `in` before it. -/
def restrictionText (body : List TokenTree) : String :=
  match TokenTree.wordsList body with
  | ["in", word] =>
    if ["self", "super", "crate"].contains word then word else "in " ++ word
  | "in" :: path => "in " ++ String.join path
  | words => String.join words

/-- The keywords in front of a declaration, each followed by a blank. -/
def leadText : List Code → String
  | [] => ""
  | .tree (.leaf _ (.ident "pub")) :: .tree (.group _ .paren body) :: rest =>
    "pub(" ++ restrictionText body ++ ") " ++ leadText rest
  | c :: rest => tightText c ++ " " ++ leadText rest

/-- The text of a visibility, with a blank after it. -/
def visibilityText (v : Visibility) : String :=
  leadText (v.trees.map Code.tree)

variable (l : Layout)

/-- An expression in the middle of a line. -/
def expr (c : Code) : List Doc := l (.expr false) c

/-- A type. -/
def type (c : Code) : List Doc := l .type c

/-- A pattern. -/
def pattern (c : Code) : List Doc := l .pattern c

/-! ### Attributes -/

/-- Whether the comments inside a text that starts `depth` comments deep are closed at its end. -/
def closesComments : Nat → List Char → Bool
  | depth, '/' :: '*' :: rest => closesComments (depth + 1) rest
  | depth, '*' :: '/' :: rest => depth != 0 && closesComments (depth - 1) rest
  | depth, [] => depth == 0
  | depth, _ :: rest => closesComments depth rest

/-- Whether a text could stand between `/*` and `*/`. -/
def isCommentBody (cs : List Char) : Bool :=
  closesComments 0 cs && cs.getLast? != some '/'

/-- A text without the spaces at its end. -/
def dropLastSpaces (s : String) : String :=
  String.ofList ((s.toList.reverse.dropWhile (· == ' ')).reverse)

/-- A text without the spaces at the ends of its lines, the last line aside. -/
def dropLineSpaces (s : String) : String :=
  let lines := s.splitOn "\n"
  "\n".intercalate (lines.dropLast.map dropLastSpaces ++ lines.getLast?.toList)

/-- The text of an attribute `#[name = "text"]`. -/
def attributeText? (name : String) : Attribute → Option String
  | .mk _ false [w] (.value v) =>
    if w.text = name then
      match v with
      | .node .literal [.tree (.leaf _ (.literal t))] => Literal.stringValue? t
      | .tree (.leaf _ (.literal t)) => Literal.stringValue? t
      | _ => none
    else none
  | _ => none

/-- A text as a comment, if its first character allows it: `line` and `block` start the comment. -/
def commentDocs? (line block : String) (notLine notBlock : List Char) (s : String) :
    Option (List Doc) :=
  let avoids (cs : List Char) : Bool := match s.toList with
    | c :: _ => !cs.contains c
    | [] => true
  let isLine := !s.toList.contains '\n'
  if isLine && avoids notLine then some [text line, text (dropLastSpaces s), hard]
  else if isCommentBody s.toList && avoids notBlock then
    some [text block, text (dropLineSpaces s), text "*/", hard]
  else none

/-- The comment that an attribute stands for. -/
def attributeComment? (a : Attribute) : Option (List Doc) :=
  match a with
  | .mk inner _ _ _ =>
    match attributeText? "doc" a, attributeText? "comment" a with
    | some s, _ =>
      if inner then commentDocs? "//!" "/*!" [] [] s
      else commentDocs? "///" "/**" ['/'] ['*', '/'] s
    | none, some s => commentDocs? "//" "/*" [] ['*', '!'] s
    | none, none => none

/-- What follows the path of an attribute. -/
def attributeArgs : AttributeArgs → List Doc
  | .empty => []
  | .list d body => (attributeToken .punct true (.group {} d body)).1
  | .value v => text " = " :: l.expr v

/-- An attribute on a line of its own, if there is more than one line. -/
def attributeDocs (a : Attribute) : List Doc :=
  match attributeComment? a with
  | some docs => docs
  | none =>
    match a with
    | .mk inner global path args =>
      let names := "::".intercalate (path.map Word.text)
      text ((if inner then "#![" else "#[") ++ (if global then "::" else "") ++ names) ::
        l.attributeArgs args ++ [text "]", space]

/-- Outer or inner attributes. -/
def attributes (as : List Attribute) : List Doc :=
  as.flatMap l.attributeDocs

/-- Attributes given as code. -/
def attributeCodes (cs : List Code) : List Doc :=
  cs.flatMap fun c => match c with
    | .attr a => l.attributeDocs a
    | _ => []

/-! ### Generic lists, bounds and paths -/

/-- The members of an angled list as they are shown: lifetimes before all else. -/
def shownMembers (cs : List Code) : List Code :=
  cs.filter Code.isLifetimeMember ++ cs.filter (fun c => !c.isLifetimeMember)

/-- Documents with `separator` between them. -/
def joined (separator : List Doc) : List (List Doc) → List Doc
  | [] => []
  | [b] => b
  | b :: c :: rest => b ++ separator ++ joined separator (c :: rest)

/-- The place between two bounds. -/
def plusPlace : List Doc := [space, text "+ "]

/-- The bounds of a list with `+` between them. -/
def bounds (parts : List Code) : List (List Doc) :=
  (parts.filter (fun c => !isOp "+" c)).map (l .bound)

/-- What follows the name of a type parameter: bounds and a default. -/
def paramTail (parts : List Code) : List Doc :=
  let bs := (parts.takeWhile (fun c => !isOp "=" c)).drop 1
  let default := (parts.dropWhile (fun c => !isOp "=" c)).drop 1
  let bounds := if bs.isEmpty then [] else text ": " :: joined plusPlace (l.bounds bs)
  bounds ++ match default with
    | [ty] => [space, text "= "] ++ l.type ty
    | _ => []

/-- A generic parameter. -/
def genericParam : Code → List Doc
  | .node _ parts =>
    let (attrs, parts) := splitAttributes parts
    l.attributeCodes attrs ++ match parts with
      | .tree (.leaf _ (.lifetime s)) :: rest =>
        let bs := rest.filter (fun c => !isOp ":" c && !isOp "+" c)
        [text (s ++ (if bs.isEmpty then "" else ": " ++ " + ".intercalate (bs.map tightText)))]
      | kw :: rest =>
        if isWord "const" kw then
          match rest with
          | name :: _ :: ty :: default =>
            text ("const " ++ tightText name ++ ": ") :: l.type ty ++ match default with
              | [_, value] => text " = " :: l.expr value
              | _ => []
          | _ => []
        else [text (tightText kw), inconsistent step (l.paramTail rest)]
      | [] => []
  | c => [text (tightText c)]

/-- A list of generic parameters. -/
def generics (gs : List Code) : List Doc :=
  gs.flatMap fun c => match c with
    | .angled .generics _ params _ =>
      if params.isEmpty then []
      else
        let docs := (shownMembers params).map l.genericParam
        [text "<", consistent 0 (shiftLast (-step) (zero :: commaList 0 docs)), text ">"]
    | _ => []

/-- The parameters bound by `for`. -/
def binder (params : List Code) : List Doc :=
  text "for<" :: joined [text ", "] (params.map l.genericParam) ++ [text "> "]

/-- Words and the parameters bound by `for` among them. -/
def wordsWithBinder (parts : List Code) : List Doc :=
  parts.flatMap fun c => match c with
    | .angled .binder _ params _ => l.binder params
    | c => [text (tightText c ++ " ")]

/-- A part of a trait bound. -/
def traitBoundPart : Code → List Doc
  | .angled .binder _ params _ => l.binder params
  | .path p => l.type (.path p)
  | c => [text (tightText c)]

/-- A bound. -/
def boundDocs : Code → List Doc
  | .node .traitBound [.group _ _ parts] =>
    text "(" :: parts.flatMap l.traitBoundPart ++ [text ")"]
  | .node .traitBound parts => parts.flatMap l.traitBoundPart
  | .angled .captureList _ captures _ =>
    text "use<" :: joined [text ", "] (captures.map (fun c => [text (tightText c)])) ++ [text ">"]
  | c => [text (tightText c)]

/-- A type argument, or a literal or block as a constant one. -/
def argumentDocs (c : Code) : List Doc :=
  match c with
  | .node .literal _ => l.expr c
  | .node .block _ => l.expr c
  | .tree _ => [text (tightText c)]
  | c => l.type c

/-- One generic argument. -/
def genericArgument (c : Code) : List Doc :=
  match c with
  | .node .assocBinding [name, .op _ "=", value] =>
    l.type name ++ text " = " :: l.argumentDocs value
  | .node .assocBinding (name :: _ :: bs) =>
    let shown := if bs.isEmpty then [] else text ": " :: joined plusPlace (l.bounds bs)
    l.type name ++ [inconsistent step shown]
  | c => l.argumentDocs c

/-- Generic arguments in angle brackets; in an expression `::` stands before them. -/
def genericArgs (inExpr : Bool) (args : List Code) : List Doc :=
  if args.isEmpty then []
  else
    bracketed (if inExpr then "::<" else "<") ">" ((shownMembers args).map l.genericArgument)

/-- A return type. -/
def returnType : List Code → List Doc
  | [_, ty] => text " -> " :: l.type ty
  | _ => []

/-- Members in parentheses whose places belong to the group around them. -/
def looseParens (members : List (List Doc)) : List Doc :=
  text "(" :: shiftLast (-step) (zero :: commaList 0 members) ++ [text ")"]

/-- The arguments of a path segment. -/
def segmentArgs (inExpr : Bool) (args : List Code) : List Doc :=
  args.flatMap fun c => match c with
    | .angled _ _ members _ => l.genericArgs inExpr members
    | .node .parenArgs (params :: out) =>
      [consistent step (looseParens ((members (groupParts params)).map l.type) ++
        l.returnType out)]
    | c => [text (tightText c)]

/-- One segment of a path. -/
def segment (inExpr : Bool) : Segment → List Doc
  | .mk name args => text name.text :: l.segmentArgs inExpr args

/-- Segments with `::` between them, and before the first if `rooted`. -/
def segments (inExpr rooted : Bool) (ss : List Segment) : List Doc :=
  (if rooted then [text "::"] else []) ++ joined [text "::"] (ss.map (l.segment inExpr))

/-- A path in an expression or pattern (`inExpr`), or in a type. The trait of a qualified self type
is written as in a type. -/
def path (inExpr : Bool) : Path → List Doc
  | .named root ss => l.segments inExpr root.isSome ss
  | .qualified [_, self, _, trait, _, _, .path (.named _ ss)] =>
    text "<" :: l.type self ++ text " as " :: l.type trait ++ text ">" :: l.segments inExpr true ss
  | .qualified [_, self, _, _, .path (.named _ ss)] =>
    text "<" :: l.type self ++ text ">" :: l.segments inExpr true ss
  | .qualified parts => [text (String.join (parts.map tightText))]

/-- A path in front of the members of a pattern, where a self type is left out. -/
def patternPath : Path → List Doc
  | .qualified [_, _, _, .path (.named root trait), _, _, .path (.named _ ss)] =>
    l.segments true root.isSome (trait ++ ss)
  | .qualified [_, _, _, _, .path (.named _ ss)] => l.segments true true ss
  | p => l.path true p

/-! ### Macro calls -/

/-- A macro call: its path, `!` and body, with a name after the `!` in an item. -/
def macroCall (semicolon : Bool) (parts : List Code) : List Doc :=
  let tail := if semicolon then [text ";"] else []
  match parts with
  | [p, _, .tree body] => text (tightText p ++ "!") :: macroBody body ++ tail
  | [p, _, name, .tree body] =>
    if tightText p = "macro_rules" then
      let rules := match body with
        | .group _ _ ts => macroRules ts
        | _ => []
      let content := if rules.isEmpty then []
        else [consistent step (hard :: shiftLast (-step) rules)]
      text ("macro_rules! " ++ tightText name ++ " \x7b") :: content ++ [text "\x7d"]
    else text (tightText p ++ "! " ++ tightText name) :: macroBody body ++ tail
  | parts => [text (" ".intercalate (parts.map Code.text))]

/-- Whether a macro call that is not last needs a semicolon after it. -/
def macroNeedsSemicolon (parts : List Code) : Bool :=
  match parts.getLast? with
  | some (.tree (.group _ .brace _)) => false
  | _ => true

end Layout

end FieldGraft

import FieldGraft.Layout.Expressions

/-!
# Layout: items

No blank line stands between items. A field or variant has a line of its own and a comma after it.
-/

namespace FieldGraft.Layout

open Doc

variable (l : Layout)

/-- The end of a braced body inside the group of its item: the content, or nothing at all. -/
def braced (docs : List Doc) : List Doc :=
  if docs.isEmpty then [] else hard :: shiftLast (-step) docs

/-- A body of fields or variants, one a line. -/
def fieldLines (fields : List (List Doc)) : List Doc :=
  braced (fields.flatMap (fun f => f ++ [text ",", hard]))

/-! ### Declarations -/

/-- A named field. -/
def fieldDef : FieldDef → List Doc
  | .mk attrs vis name ty =>
    l.attributes attrs ++ text (visibilityText vis ++ name.text ++ ": ") :: l.type ty

/-- A field given as code, with a name or without. -/
def fieldCode : Code → List Doc
  | .node .tupleField parts =>
    let (attrs, rest) := splitAttributes parts
    let front := rest.takeWhile (fun c => !isOp ":" c)
    l.attributeCodes attrs ++ match rest.dropWhile (fun c => !isOp ":" c) with
      | [_, ty] => text (dropLastSpaces (leadText front) ++ ": ") :: l.type ty
      | _ =>
        let words := leadText front.dropLast
        (if words = "" then [] else [text words]) ++ front.getLast?.toList.flatMap l.type
  | c => l.type c

/-- The fields of a tuple struct or variant. Their places belong to the group around them. -/
def tupleFields (fields : Code) : List Doc :=
  looseParens ((members (groupParts fields)).map l.fieldCode)

/-- A struct declaration. -/
def structDocs (attrs : List Attribute) (vis : Visibility) (name : Word) (gs : List Code)
    (body : StructBody) : List Doc :=
  let head := text (visibilityText vis ++ "struct " ++ name.text) :: l.generics gs
  l.attributes attrs ++ match body with
    | .named clause fields _ =>
      [consistent step (head ++ l.whereClause false clause ++ text "\x7b" ::
        fieldLines (fields.map l.fieldDef)), text "\x7d", hard]
    | .tuple fields clause =>
      [consistent step (head ++ l.tupleFields fields ++ l.whereClause true clause), hard]
    | .unit clause => [consistent step (head ++ l.whereClause true clause), hard]

/-- A variant of an enumeration. -/
def variant : Code → List Doc
  | .node .variant parts =>
    let (attrs, rest) := splitAttributes parts
    let front := rest.takeWhile (fun c => !isOp "=" c)
    let value := match rest.dropWhile (fun c => !isOp "=" c) with
      | [_, e] => text " = " :: l.expr e
      | _ => []
    let fields := match front.drop 1 with
      | [.group _ .brace parts] =>
        let fs := (members parts).map l.fieldCode
        if fs.isEmpty then [text " \x7b\x7d"]
        else [text " \x7b", consistent step (shiftLast (-step) (space :: commaList 1 fs)),
          text "\x7d"]
      | [.group pos d parts] => [consistent step (l.tupleFields (.group pos d parts))]
      | _ => []
    l.attributeCodes attrs ++ text ((front.head?.map tightText).getD "") :: fields ++ value
  | c => [text c.text]

/-! ### Functions and associated items -/

/-- A parameter of a function. -/
def param : Param → List Doc
  | .mk role parts =>
    let (attrs, rest) := splitAttributes parts
    l.attributeCodes attrs ++ match role with
      | .receiver =>
        let front := rest.takeWhile (fun c => !isOp ":" c)
        let words := front.map fun c => match c with
          | .op _ s => s
          | c => if isWord "self" c then "self" else tightText c ++ " "
        text (String.join words) :: match rest.dropWhile (fun c => !isOp ":" c) with
          | [_, ty] => text ": " :: l.type ty
          | _ => []
      | _ =>
        match rest with
        | [p, _, ty] => l.pattern p ++ text ": " :: l.type ty
        | rest => rest.flatMap l.type

/-- Whether a parameter is the trailing `...`. -/
def isVariadic : Param → Bool
  | .mk role _ => role == .variadic

/-- The parameters of a function, each followed by its comma or the place for it. -/
def paramList : List Param → List Doc
  | [] => []
  | [p] => l.param p ++ [if isVariadic p then zero else lastComma 0]
  | p :: q :: rest => l.param p ++ [text ",", space] ++ paramList (q :: rest)

/-- A function from its keywords to its return type. -/
def signature (lead : List Code) (name : Word) (gs : List Code) (params : List Param)
    (output : List Code) : List Doc :=
  let args := if params.isEmpty then []
    else [consistent 0 (shiftLast (-step) (zero :: l.paramList params))]
  let out := if output.isEmpty then [] else [consistent (-step) (l.returnType output)]
  text (leadText lead ++ name.text) :: l.generics gs ++ [text "(", never] ++ args ++
    [text ")"] ++ out

/-- A function with its body, or with `;`. -/
def function (lead : List Code) (name : Word) (gs : List Code) (params : List Param)
    (output tail : List Code) : List Doc :=
  let (attrs, words) := splitAttributes lead
  let head := l.signature words name gs params output
  l.attributeCodes attrs ++ match tail.getLast? with
    | some (.node .block [b]) =>
      [consistent step (head ++ l.whereClause false tail.dropLast ++ text "\x7b" ::
        l.bodyLines (groupParts b)), text "\x7d", hard]
    | _ => [consistent step (head ++ l.whereClause true tail.dropLast), hard]

/-- A constant or static, at the level of items or inside a block. -/
def constantDocs (parts : List Code) : List Doc :=
  let (attrs, rest) := splitAttributes parts
  let words := rest.takeWhile (fun c => !isOp ":" c)
  let value := match rest.dropWhile (fun c => !isOp ":" c) with
    | [_, ty, _] => text ": " :: l.type ty
    | [_, ty, _, e, _] => text ": " :: l.type ty ++ [text " = ", never] ++ l.expr e
    | _ => []
  l.attributeCodes attrs ++
    [consistent 0 (text (dropLastSpaces (leadText words)) :: value ++ [text ";"]), hard]

/-- Whether code is a list of generic parameters. -/
def isGenerics : Code → Bool
  | .angled .generics _ _ _ => true
  | _ => false

/-- Whether code is a `where` clause. -/
def isClause : Code → Bool
  | .node .whereClause _ => true
  | _ => false

/-- Where a type is declared, which decides on the place of its clause. -/
inductive TypePlace where
  /-- As an item, where the clause stands before the type. -/
  | item
  /-- In a trait or `impl` block, where the clause stands after the type. -/
  | member
  /-- In a foreign block, where no clause is shown. -/
  | foreign
deriving DecidableEq

/-- The declaration of a type by name. -/
def typeDeclDocs (place : TypePlace) (parts : List Code) : List Doc :=
  let (attrs, rest) := splitAttributes parts
  let plain := rest.filter (fun c => !isClause c && !isOp ";" c)
  let clause := rest.filter isClause
  let front := plain.takeWhile (fun c => !isOp "=" c)
  let words := front.takeWhile (fun c => !isOp ":" c && !isGenerics c)
  let bs := (front.dropWhile (fun c => !isOp ":" c)).drop 1
  let bounds := if bs.isEmpty then [] else text ": " :: joined plusPlace (l.bounds bs)
  let head := text (dropLastSpaces (leadText words)) :: l.generics (front.filter isGenerics) ++
    bounds
  let shown := match plain.dropWhile (fun c => !isOp "=" c) with
    | [_, ty] => [never, inconsistent (-step) (l.type ty)]
    | _ => []
  let docs := match place with
    | .item =>
      consistent step
        (head ++ l.whereClauseInline false clause ++ text "= " :: shown ++ [text ";"])
    | .member =>
      consistent step (head ++ (if shown.isEmpty then [] else text " = " :: shown) ++
        l.whereClauseInline true clause)
    | .foreign => consistent 0 (head ++ [text ";"])
  l.attributeCodes attrs ++ [docs, hard]

/-- A macro call as an item. -/
def macroItemDocs (parts : List Code) : List Doc :=
  let (attrs, rest) := splitAttributes parts
  let call := rest.filter (fun c => !isOp ";" c)
  l.attributeCodes attrs ++ macroCall (macroNeedsSemicolon call) call ++ [hard]

/-- A member of a trait, `impl` or foreign block. -/
def associated (c : Code) : List Doc :=
  match c with
  | .fn lead name gs params _ output tail => l.function lead name gs params output tail
  | .node .traitConst parts => l.constantDocs parts
  | .node .staticItem parts => l.constantDocs parts
  | .node .traitType parts => l.typeDeclDocs .member parts
  | .node .typeAlias parts => l.typeDeclDocs .foreign parts
  | .node .macroItem parts => l.macroItemDocs parts
  | .attr a => l.attributeDocs a
  | c => [text c.text, hard]

/-! ### Items -/

/-- Whether an import path ends with a group. -/
def endsWithGroup : UseTree → Bool
  | .path _ tail => endsWithGroup tail
  | .group _ _ => true
  | _ => false

/-- Whether a group of these imports needs its braces: a single one does only if it is `self`. -/
def needsBraces : List UseTree → Bool
  | [.name w] => w.text == "self"
  | [.rename w _] => w.text == "self"
  | [_] => false
  | _ => true

mutual

/-- An import tree. -/
def useTree : UseTree → List Doc
  | .path head tail => text (head.text ++ "::") :: useTree tail
  | .name w => [text w.text]
  | .rename w a => [text (w.text ++ " as " ++ a.text)]
  | .group ts _ =>
    if needsBraces ts then
      [text "\x7b",
        consistent step (shiftLast (-step) [zero, inconsistent 0 (useTrees ts), lastComma 0]),
        text "\x7d"]
    else useTrees ts
  | .glob => [text "*"]

/-- Import trees with commas between them; a group ends its line. -/
def useTrees : List UseTree → List Doc
  | [] => []
  | t :: ts =>
    useTree t ++
      (if ts.isEmpty then [] else [text ",", if endsWithGroup t then hard else space]) ++
      useTrees ts

end

/-- The members of a braced block of associated items. -/
def memberLines (inner : List Doc) (ms : List Code) : List Doc :=
  braced (inner ++ ms.flatMap l.associated)

/-- An enumeration, union or trait. -/
def nominalDocs (kind : Nominal) (attrs : List Attribute) (lead : List Code) (name : Word)
    (tail : List Code) : List Doc :=
  let bs := (tail.dropLast.filter (fun c => !isClause c && !isGenerics c)).drop 1
  let bounds := if bs.isEmpty then [] else text ": " :: joined [text " + "] (l.bounds bs)
  let parts := groupParts (tail.getLastD default)
  let content := match kind with
    | .enumeration => fieldLines ((members parts).map l.variant)
    | .union => fieldLines ((members parts).map l.fieldCode)
    | .trait => l.memberLines (l.attributes (attrs.filter Attribute.isInner)) parts
  l.attributes (attrs.filter (fun a => !a.isInner)) ++
    [consistent step (text (leadText lead ++ name.text) :: l.generics (tail.filter isGenerics) ++
      bounds ++ l.whereClause false (tail.filter isClause) ++ text "\x7b" :: content),
      text "\x7d", hard]

/-- An `impl` block. -/
def implDocs (attrs : List Attribute) (lead : List Code) (trait : TraitRef) (selfTy : Code)
    (clause : List Code) (inner : List Attribute) (ms : List Code) : List Doc :=
  let words := dropLastSpaces (leadText (lead.filter (fun c => !isGenerics c)))
  let front := consistent step (text words :: l.generics (lead.filter isGenerics))
  let target := match trait with
    | .inherent => l.type selfTy
    | .of negative p =>
      (if negative then [text "!"] else []) ++ l.path false p ++ [space, text "for "] ++
        l.type selfTy
  l.attributes attrs ++
    [consistent step (inconsistent (-step) (front :: text " " :: target) ::
      l.whereClause false clause ++ text "\x7b" :: l.memberLines (l.attributes inner) ms),
      text "\x7d", hard]

/-- A trait alias. -/
def traitAliasDocs (parts : List Code) : List Doc :=
  let (attrs, rest) := splitAttributes parts
  let front := rest.takeWhile (fun c => !isOp "=" c)
  let bs := ((rest.dropWhile (fun c => !isOp "=" c)).drop 1).filter
    (fun c => !isOp ";" c && !isClause c)
  l.attributeCodes attrs ++
    [consistent step (text (dropLastSpaces (leadText (front.filter (fun c => !isGenerics c)))) ::
      l.generics (front.filter isGenerics) ++ [text " = ", never] ++
      joined plusPlace (l.bounds bs) ++ l.whereClause true (rest.filter isClause)),
      hard]

/-- An item of any other shape. -/
def otherDocs (shape : Shape) (parts : List Code) : List Doc :=
  let (attrs, rest) := splitAttributes parts
  match shape with
  | .fnItem => parts.flatMap l.associated
  | .constItem => l.constantDocs parts
  | .staticItem => l.constantDocs parts
  | .typeAlias => l.typeDeclDocs .item parts
  | .traitAlias => l.traitAliasDocs parts
  | .macroItem => l.macroItemDocs parts
  | .moduleDecl | .externCrate =>
    let words := rest.filter (fun c => !isOp ";" c)
    l.attributeCodes attrs ++ [text (dropLastSpaces (leadText words) ++ ";"), hard]
  | .foreignMod =>
    let parts := groupParts (rest.getLastD default)
    l.attributeCodes attrs ++
      [consistent step (text (leadText rest.dropLast ++ "\x7b") :: l.memberLines [] parts),
        text "\x7d", hard]
  | _ => parts.flatMap (fun c => [text c.text]) ++ [hard]

/-- An item. -/
def itemDocs : Item → List Doc
  | .struct attrs vis name gs body => l.structDocs attrs vis name gs body
  | .nominal kind attrs lead name tail => l.nominalDocs kind attrs lead name tail
  | .use attrs vis global tree =>
    l.attributes attrs ++
      text (visibilityText vis ++ "use " ++ (if global then "::" else "")) :: useTree tree ++
      [text ";", hard]
  | .module attrs lead name inner items =>
    let content := l.attributes inner ++ items.flatMap (fun i => l .item (.item i))
    l.attributes attrs ++
      [consistent step (text (leadText lead ++ name.text ++ " \x7b") :: braced content),
        text "\x7d", hard]
  | .impl attrs lead trait selfTy clause inner ms =>
    l.implDocs attrs lead trait selfTy clause inner ms
  | .other shape parts => l.otherDocs shape parts

end FieldGraft.Layout

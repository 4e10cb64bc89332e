import FieldGraft.Source.Token

/-!
# Source code as a tree

Parsed code keeps what its source says. Field injection looks at a few constructs only: type
declarations, `impl` blocks, modules and imports among the items, and struct literals, struct
patterns and paths inside bodies. These have constructors of their own; every other construct is a
`Code.node`, its shape and its parts in source order.

* `Code.trees` gives the tokens back, so it is the one view through which code is compared.
-/

namespace FieldGraft

/-- A name at its place in the source. -/
structure Word where
  text : String
  pos : Position := {}
deriving DecidableEq, Repr, Inhabited

/-- The construct that a node stands for. Injection treats all shapes alike; layout does not. -/
inductive Shape where
  -- expressions
  | array | assign | asyncBlock | awaitExpr | attributed | binary | block | breakExpr | call | cast
  | closure | constBlock | continueExpr | fieldAccess | forLoop | ifElse | index | infer | letCond
  | loopExpr | macroCall | matchExpr | methodCall | paren | range | rawAddress | reference
  | repeatArray | returnExpr | tryExpr | tryBlock | tuple | unary | unsafeBlock | whileLoop
  | yieldExpr | label | matchArm
  -- statements
  | localLet | exprStmt | macroStmt | emptyStmt
  -- patterns
  | identPat | orPat | parenPat | rangePat | referencePat | restPat | slicePat | tuplePat
  | tupleStructPat | typedPat | wildPat
  -- types
  | arrayType | bareFn | implTrait | inferType | neverType | parenType | pointerType
  | referenceType | sliceType | traitObject | tupleType | traitBound | variadicParam
  -- generics
  | generics | genericArgs | binder | captureList | parenArgs | typeParam | whereClause
  | wherePredicate | assocBinding
  -- items
  | constItem | externCrate | fnItem | foreignMod | macroItem | moduleDecl | staticItem
  | traitAlias | typeAlias | variant | tupleField | traitConst | traitType
  /-- A literal with the sign that it may have. -/
  | literal
  /-- Tokens kept as they were written. -/
  | verbatim
deriving DecidableEq, Repr, Inhabited

/-- The declarations besides structs that annotations may stand on. -/
inductive Nominal where
  | enumeration
  | union
  | trait
deriving DecidableEq, Repr, Inhabited

/-- What a function parameter is. -/
inductive ParamRole where
  /-- `self` in one of its forms. -/
  | receiver
  | typed
  /-- The trailing `...`. -/
  | variadic
deriving DecidableEq, Repr, Inhabited

/-- What a `use` declaration brings into scope. -/
inductive UseTree where
  | path (head : Word) (tail : UseTree)
  | name (name : Word)
  | rename (name shown : Word)
  | group (trees : List UseTree) (trailing : Bool)
  | glob
deriving Repr, Inhabited

/-- The name of a member in a struct literal or pattern. -/
inductive MemberName where
  | named (name : Word)
  | indexed (number : Word)
deriving DecidableEq, Repr, Inhabited

/-- Whether the member has a name rather than a position. -/
def MemberName.isNamed : MemberName → Bool
  | named _ => true
  | indexed _ => false

/-- The word that is written. -/
def MemberName.word : MemberName → Word
  | named w => w
  | indexed w => w

mutual

/-- A piece of code. -/
inductive Code where
  /-- A token, or token trees that are kept unread. -/
  | tree (t : TokenTree)
  /-- An operator. -/
  | op (pos : Position) (text : String)
  /-- A delimited list of parts. -/
  | group (pos : Position) (delim : Delimiter) (parts : List Code)
  /-- A construct without meaning for injection: its parts in source order. -/
  | node (shape : Shape) (parts : List Code)
  /-- A list in angle brackets: generic parameters or arguments, the parameters bound by `for`, or
  the captures of `use`. What precedes the bracket is `lead`. -/
  | angled (shape : Shape) (lead : List Code) (members : List Code) (trailing : Bool)
  /-- A path used as type, expression or pattern. -/
  | path (p : Path)
  | attr (a : Attribute)
  /-- A struct literal; `rest` is empty, or `..` with the base that may follow it. -/
  | structLit (path : Path) (members : List Member) (trailing : Bool) (rest : List Code)
  /-- A struct pattern; `rest` is empty, or `..` with its attributes. -/
  | structPat (path : Path) (members : List Member) (trailing : Bool) (rest : List Code)
  /-- A function: `lead` ends with `fn`, `output` is empty or `->` and a type, `tail` holds the
  `where` clause and the body. -/
  | fn (lead : List Code) (name : Word) (generics : List Code) (params : List Param)
      (trailing : Bool) (output : List Code) (tail : List Code)
  | item (i : Item)

/-- A path, either plain or starting with a qualified self type `<T as Trait>`. -/
inductive Path where
  /-- `root` is the place of a leading `::`. -/
  | named (root : Option Position) (segments : List Segment)
  | qualified (parts : List Code)

/-- One name of a path with its generic arguments, if it has any. -/
inductive Segment where
  | mk (name : Word) (args : List Code)

/-- A member of a struct literal or pattern: what precedes the name, the name, and `:` with the
value, if there is one. -/
inductive Member where
  | mk (lead : List Code) (name : MemberName) (value : List Code)

/-- A function parameter. -/
inductive Param where
  | mk (role : ParamRole) (parts : List Code)

/-- An attribute `#[path …]`, or `#![path …]` if it is inner. -/
inductive Attribute where
  | mk (inner : Bool) (global : Bool) (path : List Word) (args : AttributeArgs)

/-- What follows the path of an attribute. -/
inductive AttributeArgs where
  | empty
  /-- A delimited token list, not read further. -/
  | list (delim : Delimiter) (body : List TokenTree)
  /-- `=` and an expression. -/
  | value (value : Code)

/-- A visibility. -/
inductive Visibility where
  | inherited
  | exported
  | restricted (parts : List Code)

/-- A named field of a struct declaration. -/
inductive FieldDef where
  | mk (attrs : List Attribute) (vis : Visibility) (name : Word) (ty : Code)

/-- The body of a struct declaration with its `where` clause. -/
inductive StructBody where
  | named (clause : List Code) (fields : List FieldDef) (trailing : Bool)
  | tuple (fields : Code) (clause : List Code)
  | unit (clause : List Code)

/-- The trait of an `impl` block. -/
inductive TraitRef where
  | inherent
  | of (negative : Bool) (path : Path)

/-- An item. -/
inductive Item where
  | struct (attrs : List Attribute) (vis : Visibility) (name : Word) (generics : List Code)
      (body : StructBody)
  /-- An enumeration, union or trait: `lead` ends with its keyword, `tail` is all after its name.
  The attributes are those in front and, for a trait, those at the start of its body. -/
  | nominal (kind : Nominal) (attrs : List Attribute) (lead : List Code) (name : Word)
      (tail : List Code)
  | use (attrs : List Attribute) (vis : Visibility) (global : Bool) (tree : UseTree)
  /-- An inline module: `lead` ends with `mod`. -/
  | module (attrs : List Attribute) (lead : List Code) (name : Word) (inner : List Attribute)
      (items : List Item)
  /-- An `impl` block: `lead` ends before the trait or self type, `clause` is the `where` clause. -/
  | impl (attrs : List Attribute) (lead : List Code) (trait : TraitRef) (selfTy : Code)
      (clause : List Code) (inner : List Attribute) (members : List Code)
  | other (shape : Shape) (parts : List Code)

end

instance : Inhabited Code := ⟨.node .verbatim []⟩
instance : Inhabited Path := ⟨.named none []⟩
instance : Inhabited Segment := ⟨.mk default []⟩
instance : Inhabited Member := ⟨.mk [] default []⟩
instance : Inhabited Param := ⟨.mk default []⟩
instance : Inhabited Attribute := ⟨.mk false false [] .empty⟩
instance : Inhabited Visibility := ⟨.inherited⟩
instance : Inhabited FieldDef := ⟨.mk [] .inherited default default⟩
instance : Inhabited Item := ⟨.other .verbatim []⟩

/-- A source file: the first line of a script, inner attributes and items. -/
structure File where
  shebang : Option String := none
  attrs : List Attribute := []
  items : List Item := []
deriving Inhabited

/-- Whether an attribute stands inside the body that it belongs to. -/
def Attribute.isInner : Attribute → Bool
  | .mk inner _ _ _ => inner

/-! ### Tokens of code -/

/-- The token of a name. -/
def Word.tree (w : Word) : TokenTree :=
  .leaf w.pos (.ident w.text)

/-- The token of a member name. -/
def MemberName.tree : MemberName → TokenTree
  | named w => w.tree
  | indexed w => .leaf w.pos (.literal w.text)

/-- The punctuation tokens of an operator: glued, but for the last. -/
def opTrees (pos : Position) : List Char → List TokenTree
  | [] => []
  | [c] => [.leaf pos (.punct c false)]
  | c :: d :: cs => .leaf pos (.punct c true) :: opTrees ⟨pos.line, pos.column + 1⟩ (d :: cs)

/-- An operator without a place of its own. -/
def opText (text : String) : List TokenTree :=
  opTrees {} text.toList

/-- A keyword without a place of its own. -/
def keywordTree (text : String) : TokenTree :=
  .leaf {} (.ident text)

/-- Lists separated by commas, with one at the end if `trailing`. -/
def commaSeparated (trailing : Bool) : List (List TokenTree) → List TokenTree
  | [] => []
  | [ts] => ts ++ (if trailing then opText "," else [])
  | ts :: us :: rest => ts ++ opText "," ++ commaSeparated trailing (us :: rest)

/-- Whether a piece of code is an attribute. -/
def Code.isAttribute : Code → Bool
  | .attr _ => true
  | _ => false

/-- Whether a piece of code is a lifetime. -/
def Code.isLifetime : Code → Bool
  | .tree (.leaf _ (.lifetime _)) => true
  | _ => false

/-- Whether a member of an angled list is a lifetime, or a parameter that is one. -/
def Code.isLifetimeMember : Code → Bool
  | .node .typeParam parts => (parts.find? (fun c => !c.isAttribute)).any Code.isLifetime
  | c => c.isLifetime

/-- The members of an angled list, each with whether it is a lifetime: lifetimes are written before
all else, and a comma ends the list if one followed the member that is now last. -/
def lifetimesFirst (trailing : Bool) (ms : List (Bool × List TokenTree)) : List TokenTree :=
  let lifetimes := ms.filter (fun m => m.1)
  let others := ms.filter (fun m => !m.1)
  let movedLast := !others.isEmpty && (ms.getLast?.map (fun m => m.1)).getD false
  commaSeparated (trailing || movedLast) ((lifetimes ++ others).map (fun m => m.2))

/-- Tokens put at the start of the last group of a list. -/
def intoLastGroup (inner : List TokenTree) : List TokenTree → List TokenTree
  | [] => []
  | [.group pos d body] => [.group pos d (inner ++ body)]
  | t :: ts => t :: intoLastGroup inner ts

/-- Path segments separated by `::`. -/
def pathSeparated : List (List TokenTree) → List TokenTree
  | [] => []
  | [ts] => ts
  | ts :: us :: rest => ts ++ opText "::" ++ pathSeparated (us :: rest)

mutual

/-- The tokens of an import tree. -/
def UseTree.trees : UseTree → List TokenTree
  | .path head tail => head.tree :: (opText "::" ++ tail.trees)
  | .name w => [w.tree]
  | .rename w a => [w.tree, keywordTree "as", a.tree]
  | .group ts trailing => [.group {} .brace (commaSeparated trailing (UseTree.treesList ts))]
  | .glob => opText "*"

/-- The tokens of each import tree of a list. -/
def UseTree.treesList : List UseTree → List (List TokenTree)
  | [] => []
  | t :: ts => t.trees :: UseTree.treesList ts

end

mutual

/-- The tokens of a piece of code. -/
def Code.trees : Code → List TokenTree
  | .tree t => [t]
  | .op pos text => opTrees pos text.toList
  | .group pos d parts => [.group pos d (Code.treesList parts)]
  | .node _ parts => Code.treesList parts
  | .angled shape lead members trailing =>
    let each := Code.treesEach members
    let inside :=
      if shape = .binder then commaSeparated trailing each
      else lifetimesFirst trailing ((members.map Code.isLifetimeMember).zip each)
    if shape = .generics && members.isEmpty then []
    else Code.treesList lead ++ opText "<" ++ inside ++ opText ">"
  | .path p => p.trees
  | .attr a => a.trees
  | .structLit p members trailing rest =>
    p.trees ++
      [.group {} .brace (commaSeparated trailing (Member.treesList members) ++
        Code.treesList rest)]
  | .structPat p members trailing rest =>
    p.trees ++
      [.group {} .brace (commaSeparated trailing (Member.treesList members) ++
        Code.treesList rest)]
  | .fn lead name generics params trailing output tail =>
    Code.treesList lead ++ name.tree :: (Code.treesList generics ++
      .group {} .paren (commaSeparated trailing (Param.treesList params)) ::
        (Code.treesList output ++ Code.treesList tail))
  | .item i => i.trees

/-- The tokens of a list of pieces. -/
def Code.treesList : List Code → List TokenTree
  | [] => []
  | c :: cs => c.trees ++ Code.treesList cs

/-- The tokens of each piece of a list. -/
def Code.treesEach : List Code → List (List TokenTree)
  | [] => []
  | c :: cs => c.trees :: Code.treesEach cs

/-- The tokens of a path. -/
def Path.trees : Path → List TokenTree
  | .named root segments =>
    (match root with
      | some pos => opTrees pos "::".toList
      | none => []) ++ pathSeparated (Segment.treesList segments)
  | .qualified parts => Code.treesList parts

/-- The tokens of one path segment. -/
def Segment.trees : Segment → List TokenTree
  | .mk name args => name.tree :: Code.treesList args

/-- The tokens of each segment of a list. -/
def Segment.treesList : List Segment → List (List TokenTree)
  | [] => []
  | s :: ss => s.trees :: Segment.treesList ss

/-- The tokens of a member. -/
def Member.trees : Member → List TokenTree
  | .mk lead name value => Code.treesList lead ++ name.tree :: Code.treesList value

/-- The tokens of each member of a list. -/
def Member.treesList : List Member → List (List TokenTree)
  | [] => []
  | m :: ms => m.trees :: Member.treesList ms

/-- The tokens of a parameter. -/
def Param.trees : Param → List TokenTree
  | .mk _ parts => Code.treesList parts

/-- The tokens of each parameter of a list. -/
def Param.treesList : List Param → List (List TokenTree)
  | [] => []
  | p :: ps => p.trees :: Param.treesList ps

/-- The tokens of an attribute. -/
def Attribute.trees : Attribute → List TokenTree
  | .mk inner global path args =>
    opText "#" ++ (if inner then opText "!" else []) ++
      [.group {} .bracket
        ((if global then opText "::" else []) ++ pathSeparated (path.map (fun w => [w.tree])) ++
          args.trees)]

/-- The tokens of attributes. -/
def Attribute.treesList : List Attribute → List TokenTree
  | [] => []
  | a :: as => a.trees ++ Attribute.treesList as

/-- The tokens of the attributes that stand inside a body, or of those in front. -/
def Attribute.treesWhere (inside : Bool) : List Attribute → List TokenTree
  | [] => []
  | a :: as => (if a.isInner == inside then a.trees else []) ++ Attribute.treesWhere inside as

/-- The tokens after the path of an attribute. -/
def AttributeArgs.trees : AttributeArgs → List TokenTree
  | .empty => []
  | .list d body => [.group {} d body]
  | .value v => opText "=" ++ v.trees

/-- The tokens of a visibility. -/
def Visibility.trees : Visibility → List TokenTree
  | .inherited => []
  | .exported => [keywordTree "pub"]
  | .restricted parts => [keywordTree "pub", .group {} .paren (Code.treesList parts)]

/-- The tokens of a field declaration. -/
def FieldDef.trees : FieldDef → List TokenTree
  | .mk attrs vis name ty =>
    Attribute.treesList attrs ++ vis.trees ++ name.tree :: (opText ":" ++ ty.trees)

/-- The tokens of each field of a list. -/
def FieldDef.treesList : List FieldDef → List (List TokenTree)
  | [] => []
  | f :: fs => f.trees :: FieldDef.treesList fs

/-- The tokens of a struct body. -/
def StructBody.trees : StructBody → List TokenTree
  | .named clause fields trailing =>
    Code.treesList clause ++
      [.group {} .brace (commaSeparated trailing (FieldDef.treesList fields))]
  | .tuple fields clause => fields.trees ++ Code.treesList clause ++ opText ";"
  | .unit clause => Code.treesList clause ++ opText ";"

/-- The tokens before the self type of an `impl` block. -/
def TraitRef.trees : TraitRef → List TokenTree
  | .inherent => []
  | .of negative path =>
    (if negative then opText "!" else []) ++ path.trees ++ [keywordTree "for"]

/-- The tokens of an item. -/
def Item.trees : Item → List TokenTree
  | .struct attrs vis name generics body =>
    Attribute.treesList attrs ++ vis.trees ++ keywordTree "struct" :: name.tree ::
      (Code.treesList generics ++ body.trees)
  | .nominal _ attrs lead name tail =>
    Attribute.treesWhere false attrs ++ Code.treesList lead ++ name.tree ::
      intoLastGroup (Attribute.treesWhere true attrs) (Code.treesList tail)
  | .use attrs vis global tree =>
    Attribute.treesList attrs ++ vis.trees ++ keywordTree "use" ::
      ((if global then opText "::" else []) ++ tree.trees ++ opText ";")
  | .module attrs lead name inner items =>
    Attribute.treesList attrs ++ Code.treesList lead ++ name.tree ::
      [.group {} .brace (Attribute.treesList inner ++ Item.treesList items)]
  | .impl attrs lead trait selfTy clause inner members =>
    Attribute.treesList attrs ++ Code.treesList lead ++ trait.trees ++ selfTy.trees ++
      Code.treesList clause ++
      [.group {} .brace (Attribute.treesList inner ++ Code.treesList members)]
  | .other _ parts => Code.treesList parts

/-- The tokens of a list of items. -/
def Item.treesList : List Item → List TokenTree
  | [] => []
  | i :: is => i.trees ++ Item.treesList is

end

/-- The tokens of a file; the script line is not one. -/
def File.trees (f : File) : List TokenTree :=
  Attribute.treesList f.attrs ++ Item.treesList f.items

/-- The spaced text of a piece of code. -/
def Code.text (c : Code) : String :=
  TokenTree.textList c.trees

/-- Where a piece of code starts. -/
def Code.pos (c : Code) : Position :=
  match c.trees with
  | [] => {}
  | t :: _ => t.pos

/-! ### Attributes in front of code -/

/-- The construct without the attributes in front of it. -/
def Code.core : Code → Code
  | .node .attributed parts => parts.getLastD default
  | c => c

/-- The shape of a construct, attributes aside. -/
def Code.shape? (c : Code) : Option Shape :=
  match c.core with
  | .node s _ => some s
  | _ => none

/-- Whether an expression ends with a block of its own, so that neither a comma nor a semicolon need
follow it. -/
def Code.closesItself (c : Code) : Bool :=
  match c.shape? with
  | some s =>
    [Shape.ifElse, .matchExpr, .block, .unsafeBlock, .whileLoop, .loopExpr, .forLoop, .tryBlock,
      .constBlock].contains s
  | none => false

/-! ### Paths -/

/-- The name of a segment. -/
def Segment.name : Segment → Word
  | .mk name _ => name

/-- The generic arguments of a segment. -/
def Segment.args : Segment → List Code
  | .mk _ args => args

/-- The segments of a path, those behind a qualified self type if it has one. -/
def Path.segments : Path → List Segment
  | .named _ segments => segments
  | .qualified parts =>
    match parts.getLast? with
    | some (.path (.named _ segments)) => segments
    | _ => []

/-- The path with other segments, behind its qualified self type if it has one. -/
def Path.withSegments (segments : List Segment) : Path → Path
  | .named root _ => .named root segments
  | .qualified parts => .qualified (parts.dropLast ++ [.path (.named none segments)])

/-- The segment names of a plain path. -/
def Path.names? : Path → Option (List String)
  | .named _ segments => some (segments.map (fun s => s.name.text))
  | .qualified _ => none

/-- The single name of an attribute without arguments in its path. -/
def Attribute.ident? : Attribute → Option String
  | .mk _ false [w] _ => some w.text
  | _ => none

end FieldGraft

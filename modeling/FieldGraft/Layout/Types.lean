import FieldGraft.Layout.Basic

/-!
# Layout: types and `where` clauses
-/

namespace FieldGraft.Layout

open Doc

variable (l : Layout)

/-- A tuple; a single member keeps its comma. -/
def tuple (members : List (List Doc)) : List Doc :=
  match members with
  | [m] => [text "(", consistent step (shiftLast (-step) (zero :: m ++ [text ",", zero])), text ")"]
  | ms => bracketed "(" ")" ms

/-- A parameter of a function type, with its name if it has one. -/
def bareParam : Code → List Doc
  | .node .attributed parts =>
    let (attrs, rest) := splitAttributes parts
    l.attributeCodes attrs ++ rest.flatMap named
  | .node .variadicParam parts =>
    let (attrs, rest) := splitAttributes parts
    let name := match rest with
      | [name, _, _] => tightText name ++ ": "
      | _ => ""
    l.attributeCodes attrs ++ [text (name ++ "...")]
  | c => named c
where
  /-- A parameter without its attributes. -/
  named : Code → List Doc
    | .node .typedPat [name, _, ty] => text (tightText name ++ ": ") :: l.type ty
    | c => l.type c

/-- The parameters of a function type. No comma follows a trailing `...`. -/
def bareParams : List Code → List Doc
  | [] => []
  | [.node .variadicParam parts] => l.bareParam (.node .variadicParam parts) ++ [zero]
  | [p] => l.bareParam p ++ [lastComma 0]
  | p :: q :: rest => l.bareParam p ++ [text ",", space] ++ bareParams (q :: rest)

/-- A function type. -/
def bareFn (parts : List Code) : List Doc :=
  let isGroup (c : Code) : Bool := match c with
    | .group _ _ _ => true
    | _ => false
  let lead := l.wordsWithBinder (parts.takeWhile (fun c => !isGroup c)).dropLast
  match parts.dropWhile (fun c => !isGroup c) with
  | params :: out =>
    let shown := match members (groupParts params) with
      | [] => []
      | ps => [consistent step (shiftLast (-step) (zero :: l.bareParams ps))]
    lead ++ text "fn(" :: shown ++ text ")" :: l.returnType out
  | [] => lead

/-- Words and a type or pattern after them, such as `&'a mut T`. -/
def afterWords (inner : Code → List Doc) : List Code → List Doc
  | [] => []
  | [c] => inner c
  | c :: rest =>
    let word := match c with
      | .op _ s => s
      | c => tightText c ++ " "
    text word :: afterWords inner rest

/-- A type. -/
def typeDocs (c : Code) : List Doc :=
  match c with
  | .path p => l.path false p
  | .node .attributed parts =>
    let (attrs, rest) := splitAttributes parts
    l.attributeCodes attrs ++ rest.flatMap l.type
  | .node .arrayType [.group _ _ [elem, _, len]] =>
    text "[" :: l.type elem ++ text "; " :: l.expr len ++ [text "]"]
  | .node .sliceType [.group _ _ [elem]] => text "[" :: l.type elem ++ [text "]"]
  | .node .bareFn parts => l.bareFn parts
  | .node .implTrait (_ :: bs) => text "impl " :: joined [text " + "] (l.bounds bs)
  | .node .traitObject parts =>
    text "dyn " :: joined [text " + "] (l.bounds (parts.filter (fun c => !isWord "dyn" c)))
  | .node .parenType [.group _ _ [ty]] => text "(" :: l.type ty ++ [text ")"]
  | .node .pointerType parts => afterWords l.type parts
  | .node .referenceType parts => afterWords l.type parts
  | .node .tupleType [.group _ _ parts] => tuple ((members parts).map l.type)
  | .node .macroCall parts => macroCall false parts
  | c => [text (if c.trees.length ≤ 1 then tightText c else c.text)]

/-! ### Clauses -/

/-- One predicate of a `where` clause. -/
def wherePredicate : Code → List Doc
  | .node .wherePredicate parts =>
    let lead := parts.takeWhile (fun c => !isOp ":" c)
    let bs := (parts.dropWhile (fun c => !isOp ":" c)).drop 1
    let subject := lead.flatMap fun c => match c with
      | .angled .binder _ params _ => l.binder params
      | c => l.type c
    let bounds := l.bounds bs
    let indent := if bounds.length == 1 then 0 else step
    let shown := if bounds.isEmpty then [] else text " " :: joined plusPlace bounds
    subject ++ [text ":", inconsistent indent shown]
  | c => l.type c

/-- Predicates on lines of their own, each with a comma after it, the last with `;` if `semi`. -/
def predicateLines (semi : Bool) : List (List Doc) → List Doc
  | [] => []
  | [p] => p ++ (if semi then [text ";"] else [text ",", hard])
  | p :: q :: rest => p ++ [text ",", hard] ++ predicateLines semi (q :: rest)

/-- Predicates that may share a line. -/
def predicateList (semi : Bool) : List (List Doc) → List Doc
  | [] => []
  | [p] => p ++ (if semi then [text ";"] else [lastComma 1])
  | p :: q :: rest => p ++ [text ",", space] ++ predicateList semi (q :: rest)

/-- The predicates of a clause. -/
def clausePredicates (clause : List Code) : List (List Doc) :=
  clause.flatMap fun c => match c with
    | .node .whereClause (_ :: parts) => (members parts).map l.wherePredicate
    | _ => []

/-- A clause in front of a body or a `;`. Without predicates that is a blank or the `;` alone. -/
def whereClause (semi : Bool) (clause : List Code) : List Doc :=
  let ps := l.clausePredicates clause
  if ps.isEmpty then [text (if semi then ";" else " ")]
  else
    let lines := predicateLines semi ps
    [line { blank := unbounded, offset := -step }, text "where", hard] ++
      (if semi then lines else shiftLast (-step) lines)

/-- A clause that stays on one line if it fits. -/
def whereClauseInline (semi : Bool) (clause : List Code) : List Doc :=
  let ps := l.clausePredicates clause
  if ps.isEmpty then [text (if semi then ";" else " ")]
  else
    let list := predicateList semi ps
    [line { blank := 1, offset := -step }, text "where", space] ++
      (if semi then list else shiftLast (-step) list)

end FieldGraft.Layout

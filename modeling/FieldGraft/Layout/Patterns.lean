import FieldGraft.Layout.Types

/-!
# Layout: patterns
-/

namespace FieldGraft.Layout

open Doc

variable (l : Layout)

/-- A member of a struct pattern. -/
def patternMember : Member → List Doc
  | .mk lead name value =>
    let (attrs, words) := splitAttributes lead
    let name := name.word.text
    l.attributeCodes attrs ++ match value with
      | [_, pat] => text (name ++ ": ") :: l.pattern pat
      | _ => [text (leadText words ++ name)]

/-- Members of a struct pattern or literal between braces, with `rest` as the last one. -/
def memberList (ms : List (List Doc)) (rest : List Doc) : List Doc :=
  let list := if rest.isEmpty then commaList 1 ms
    else (ms.flatMap fun m => m ++ [text ",", space]) ++ rest ++ [space]
  shiftLast (-step) (space :: list)

/-- A bound of a range pattern, or a literal. -/
def patternAtom (c : Code) : List Doc :=
  match c with
  | .path p => l.path true p
  | .node .constBlock _ => l.expr c
  | c => [text (tightText c)]

/-- Whether alternatives of this form may share lines. -/
def isPlainAlternative : Code → Bool
  | .node .literal _ => true
  | .node .wildPat _ => true
  | _ => false

/-- Alternatives with `|` between them. -/
def alternatives (parts : List Code) : List Doc :=
  let cases := parts.filter (fun c => !isOp "|" c)
  let docs := joined [space, text "| "] (cases.map l.pattern)
  if cases.all isPlainAlternative then [inconsistent 0 docs] else [consistent 0 docs]

/-- Whether a list of code ends with a comma. -/
def endsWithComma (parts : List Code) : Bool :=
  (parts.getLast?.map (isOp ",")).getD false

/-- A tuple pattern. -/
def tuplePattern (parts : List Code) : List Doc :=
  match members parts with
  | [c] =>
    let comma := if endsWithComma parts then [text ","] else []
    [text "(", consistent step (shiftLast (-step) (zero :: l.pattern c ++ comma ++ [zero])),
      text ")"]
  | cs => bracketed "(" ")" (cs.map l.pattern)

/-- A binding with its words in front and the pattern after `@`. -/
def identPattern (parts : List Code) : List Doc :=
  let front := parts.takeWhile (fun c => !isOp "@" c)
  let sub := (parts.dropWhile (fun c => !isOp "@" c)).drop 1
  text (" ".intercalate (front.map tightText)) :: match sub with
    | [p] => text " @ " :: l.pattern p
    | _ => []

/-- A pattern. -/
def patternDocs (c : Code) : List Doc :=
  match c with
  | .path p => l.path true p
  | .structPat p ms _ rest =>
    let (attrs, dots) := splitAttributes rest
    let tail := if dots.isEmpty then [] else l.attributeCodes attrs ++ [text ".."]
    let content := if ms.isEmpty && rest.isEmpty then []
      else memberList (ms.map l.patternMember) tail
    [consistent step (l.patternPath p ++ text " \x7b" :: content), text "\x7d"]
  | .node .attributed parts =>
    let (attrs, rest) := splitAttributes parts
    l.attributeCodes attrs ++ rest.flatMap l.pattern
  | .node .identPat parts => l.identPattern parts
  | .node .orPat parts => l.alternatives parts
  | .node .parenPat [.group _ _ [p]] => text "(" :: l.pattern p ++ [text ")"]
  | .node .rangePat parts => parts.flatMap l.patternAtom
  | .node .referencePat parts => afterWords l.pattern parts
  | .node .slicePat [.group _ _ parts] =>
    text "[" :: commaList 0 ((members parts).map l.pattern) ++ [text "]"]
  | .node .tuplePat [.group _ _ parts] => l.tuplePattern parts
  | .node .tupleStructPat [.path p, .group _ _ parts] =>
    l.patternPath p ++ bracketed "(" ")" ((members parts).map l.pattern)
  | .node .typedPat parts =>
    let (attrs, rest) := splitAttributes parts
    l.attributeCodes attrs ++ match rest with
      | [p, _, ty] => l.pattern p ++ text ": " :: l.type ty
      | rest => rest.flatMap l.pattern
  | .node .macroCall parts => macroCall false parts
  | .node .constBlock _ => l.expr c
  | c => [text (tightText c)]

end FieldGraft.Layout

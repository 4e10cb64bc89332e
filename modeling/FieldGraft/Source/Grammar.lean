import FieldGraft.Source.Grammar.Items
import FieldGraft.Source.TokenStream

/-!
# The grammar and its entry points

`grammar n` reads every construct that is nested at most `n` goals deep. A goal nested in another
one starts after at least one token or is one of a fixed number of goals at the same place, so a
bound linear in the number of tokens never cuts a reading short.
-/

namespace FieldGraft

/-- The production of each goal, given a grammar for the goals nested in it. -/
def produce (g : Grammar) : Grammar
  | .expr structs => g.exprRule structs
  | .operand structs => g.operandRule structs
  | .operators structs base lhs => g.operatorsRule structs base lhs
  | .stmtExpr => g.stmtExprRule
  | .type plus => g.typeRule plus
  | .pattern => g.patternRule
  | .bound place => g.bound place
  | .fields => g.codeFields
  | .item => g.itemRule
  | .stmt => g.stmtRule

/-- The grammar for constructs nested at most that deep. -/
def grammar : Nat → Grammar
  | 0 => fun _ => Parser.fail "nested too deeply"
  | depth + 1 => produce (grammar depth)

/-- A grammar that is deep enough for the given token trees. -/
def grammarFor (ts : List TokenTree) : Grammar :=
  grammar (16 * (TokenTree.sizeList ts + 2))

/-- The type that a text is. -/
def typeOfText? (text : String) : Option Code :=
  match lex text with
  | none => none
  | some ts => (Parser.runAll (grammarFor ts).type ts).toOption

/-- An item read from code. -/
def asItem : Code → Option Item
  | .item i => some i
  | _ => none

/-- The single item that a text is. -/
def itemOfText? (text : String) : Option Item :=
  match lex text with
  | none => none
  | some ts =>
    match Parser.runAll ((grammarFor ts) .item) ts with
    | .ok c => asItem c
    | .error _ => none

/-- Why a text is not a source file. -/
inductive SourceError where
  /-- The text is not a sequence of tokens. -/
  | unlexable
  | malformed (cause : SyntaxError)
deriving DecidableEq, Repr, Inhabited

/-- The text shown to the user. -/
def SourceError.message : SourceError → String
  | unlexable => "cannot parse string into token stream"
  | malformed e => e.message

/-- Inner attributes and items. -/
def fileContent (g : Grammar) : Parser (List Attribute × List Item) := do
  let attrs ← g.innerAttributes
  let items ← Parser.untilEnd (g .item)
  return (attrs, items.filterMap asItem)

/-- Splits off the first line of a script. `#![` starts an attribute, not a script line. -/
def splitShebang (cs : List Char) : Option String × List Char :=
  match cs with
  | '#' :: '!' :: rest =>
    if skipsToBracket (rest.length + 1) rest then (none, cs)
    else
      let line := cs.takeWhile (· != '\n')
      (some (String.ofList line), cs.drop line.length)
  | _ => (none, cs)
where
  /-- Whether a bracket is the first thing after blanks and comments. -/
  skipsToBracket : Nat → List Char → Bool
    | 0, _ => false
    | _ + 1, [] => false
    | fuel + 1, c :: cs =>
      if c = '[' then true
      else if Lexeme.isSkipped c then skipsToBracket fuel cs
      else match Lexeme.plainComment (c :: cs) with
        | some n => skipsToBracket fuel ((c :: cs).drop n)
        | none => false

/-- Reads a source file. A byte order mark is dropped before anything is counted. -/
def File.ofText (text : String) : Except SourceError File :=
  let cs := match text.toList with
    | c :: cs => if c = byteOrderMark then cs else c :: cs
    | [] => []
  let (shebang, body) := splitShebang cs
  match lex (String.ofList body) with
  | none => .error .unlexable
  | some ts =>
    match Parser.runAll (fileContent (grammarFor ts)) ts with
    | .ok (attrs, items) => .ok { shebang, attrs, items }
    | .error e => .error (.malformed e)

end FieldGraft

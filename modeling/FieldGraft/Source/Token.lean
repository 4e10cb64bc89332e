/-!
# Tokens of source code

Source code is a list of token trees: single tokens and delimited groups. A punctuation token is one
character, and records whether it is glued to the next punctuation character; operators such as
`::` are runs of glued characters.

* `TokenTree.words` lists the tokens one by one, every punctuation character on its own.
* `TokenTree.text` is the spaced text of a token list.
-/

namespace FieldGraft

/-- A place in a source text: lines from 1, columns from 0 in characters. -/
structure Position where
  line : Nat := 1
  column : Nat := 0
deriving DecidableEq, Repr, Inhabited

namespace Position

/-- The place after one more character. -/
def step (p : Position) (c : Char) : Position :=
  if c = '\n' then ⟨p.line + 1, 0⟩ else ⟨p.line, p.column + 1⟩

/-- The place after a run of characters. -/
def after (p : Position) (cs : List Char) : Position :=
  cs.foldl step p

end Position

/-- The three kinds of brackets. -/
inductive Delimiter where
  | paren
  | bracket
  | brace
deriving DecidableEq, Repr, Inhabited

namespace Delimiter

/-- The opening bracket. -/
def opening : Delimiter → Char
  | paren => '('
  | bracket => '['
  | brace => '\x7b'

/-- The closing bracket. -/
def closing : Delimiter → Char
  | paren => ')'
  | bracket => ']'
  | brace => '\x7d'

end Delimiter

/-- A token that is not a group. -/
inductive Token where
  /-- A name or keyword, with its `r#` if it has one. -/
  | ident (text : String)
  /-- A literal as written. -/
  | literal (text : String)
  /-- A lifetime with its quote. -/
  | lifetime (text : String)
  /-- One punctuation character, and whether the next character is punctuation too. -/
  | punct (char : Char) (joint : Bool)
deriving DecidableEq, Repr, Inhabited

/-- The token as written. -/
def Token.text : Token → String
  | ident t => t
  | literal t => t
  | lifetime t => t
  | punct c _ => c.toString

/-- A token or a delimited group of token trees, at its place in the source. -/
inductive TokenTree where
  | leaf (pos : Position) (token : Token)
  | group (pos : Position) (delim : Delimiter) (body : List TokenTree)
deriving Repr, Inhabited

namespace TokenTree

/-- Where the tree starts. -/
def pos : TokenTree → Position
  | leaf p _ => p
  | group p _ _ => p

mutual

/-- The tokens of a tree, brackets included, each as its own text. -/
def words : TokenTree → List String
  | leaf _ t => [t.text]
  | group _ d body => d.opening.toString :: (wordsList body ++ [d.closing.toString])

/-- The tokens of a list of trees. -/
def wordsList : List TokenTree → List String
  | [] => []
  | t :: ts => t.words ++ wordsList ts

end

/-- Whether the next token is written without a space before it. -/
def gluesNext : TokenTree → Bool
  | leaf _ (.punct _ joint) => joint
  | _ => false

mutual

/-- The text of one tree. Braces are padded on the inside. -/
def text : TokenTree → String
  | leaf _ t => t.text
  | group _ .paren body => "(" ++ textList body ++ ")"
  | group _ .bracket body => "[" ++ textList body ++ "]"
  | group _ .brace [] => "\x7b \x7d"
  | group _ .brace (t :: ts) => "\x7b " ++ textList (t :: ts) ++ " \x7d"

/-- Token trees separated by one space, except after a glued punctuation character. -/
def textList : List TokenTree → String
  | [] => ""
  | [t] => t.text
  | t :: u :: rest => t.text ++ (if t.gluesNext then "" else " ") ++ textList (u :: rest)

end

mutual

/-- How many tokens and groups a tree holds. -/
def size : TokenTree → Nat
  | leaf _ _ => 1
  | group _ _ body => 1 + sizeList body

/-- How many tokens and groups a list of trees holds. -/
def sizeList : List TokenTree → Nat
  | [] => 0
  | t :: ts => t.size + sizeList ts

end

end TokenTree

/-- Names that the language reserves, so that they are not identifiers. -/
def keywords : List String :=
  ["_", "abstract", "as", "async", "await", "become", "box", "break", "const", "continue",
    "crate", "do", "dyn", "else", "enum", "extern", "false", "final", "fn", "for", "if", "impl",
    "in", "let", "loop", "macro", "match", "mod", "move", "mut", "override", "priv", "pub", "ref",
    "return", "Self", "self", "static", "struct", "super", "trait", "true", "try", "type",
    "typeof", "unsafe", "unsized", "use", "virtual", "where", "while", "yield"]

/-- Whether a name token is a keyword. -/
def isKeyword (name : String) : Bool :=
  keywords.contains name

end FieldGraft

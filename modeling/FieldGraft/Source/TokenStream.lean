import FieldGraft.Source.Lexeme
import FieldGraft.Source.Token
import FieldGraft.Text.Escape

/-!
# From text to token trees

`lex` cuts a text into token trees. A text that is not a sequence of tokens with balanced brackets
has no token trees. Comments vanish, and a documentation comment becomes the attribute it stands
for.
-/

namespace FieldGraft

/-- What stands at the front of a text. -/
inductive Lexed where
  /-- Blanks or a comment. -/
  | skipped
  /-- A documentation comment. -/
  | doc (inner : Bool) (text : String)
  | opening (delim : Delimiter)
  | closing (delim : Delimiter)
  | token (t : Token)
deriving Repr

namespace Lexed

/-- The bracket that a character opens. -/
def opens? : Char → Option Delimiter
  | '(' => some .paren
  | '[' => some .bracket
  | '\x7b' => some .brace
  | _ => none

/-- The bracket that a character closes. -/
def closes? : Char → Option Delimiter
  | ')' => some .paren
  | ']' => some .bracket
  | '\x7d' => some .brace
  | _ => none

/-- The token at the front, if one starts there, and its length. -/
def token? (cs : List Char) : Option (Lexed × Nat) :=
  match Lexeme.literal cs with
  | some n => some (.token (.literal (String.ofList (cs.take n))), n)
  | none =>
    match cs with
    | [] => none
    | '\'' :: _ =>
      (Lexeme.lifetime cs).map (fun n => (.token (.lifetime (String.ofList (cs.take n))), n))
    | c :: rest =>
      if Lexeme.startsPunct cs then some (.token (.punct c (Lexeme.startsPunct rest)), 1)
      else (Lexeme.name cs).map (fun n => (.token (.ident (String.ofList (cs.take n))), n))

/-- What stands at the front of a non-empty text, and its length. -/
def next? (cs : List Char) : Option (Lexed × Nat) :=
  match cs with
  | [] => none
  | c :: _ =>
    if Lexeme.isSkipped c then some (.skipped, 1)
    else match Lexeme.plainComment cs with
      | some n => some (.skipped, n)
      | none =>
        match Lexeme.docComment cs with
        | some (n, inner, body) =>
          if Lexeme.hasBareReturn body then none
          else some (.doc inner (String.ofList body), n)
        | none =>
          match opens? c, closes? c with
          | some d, _ => some (.opening d, 1)
          | none, some d => some (.closing d, 1)
          | none, none => token? cs

end Lexed

/-- A bracket that is still open, with what stands before it. -/
structure OpenGroup where
  pos : Position
  delim : Delimiter
  /-- The trees before the bracket, last one first. -/
  before : List TokenTree

/-- The attribute that a documentation comment stands for. -/
def docTrees (pos : Position) (inner : Bool) (text : String) : List TokenTree :=
  let mark (c : Char) : TokenTree := .leaf pos (.punct c false)
  let body : List TokenTree :=
    [.leaf pos (.ident "doc"), mark '=', .leaf pos (.literal (Text.quote text))]
  let marks := if inner then [mark '#', mark '!'] else [mark '#']
  marks ++ [.group pos .bracket body]

/-- Assembles token trees: `opened` are the brackets still open, `done` the trees since the
innermost of them, last one first. -/
def assemble : (fuel : Nat) → Position → List Char → List OpenGroup → List TokenTree →
    Option (List TokenTree)
  | 0, _, _, _, _ => none
  | _ + 1, _, [], [], done => some done.reverse
  | _ + 1, _, [], _ :: _, _ => none
  | fuel + 1, pos, c :: cs, opened, done =>
    match Lexed.next? (c :: cs) with
    | none => none
    | some (lexed, n) =>
      let pos' := pos.after ((c :: cs).take n)
      let rest := (c :: cs).drop n
      match lexed with
      | .skipped => assemble fuel pos' rest opened done
      | .doc inner text =>
        assemble fuel pos' rest opened ((docTrees pos inner text).reverse ++ done)
      | .opening d => assemble fuel pos' rest (⟨pos, d, done⟩ :: opened) []
      | .closing d =>
        match opened with
        | [] => none
        | g :: outer =>
          if g.delim = d then
            assemble fuel pos' rest outer (.group g.pos d done.reverse :: g.before)
          else none
      | .token t => assemble fuel pos' rest opened (.leaf pos t :: done)

/-- The token trees of a text starting at `pos`. -/
def lexAt (pos : Position) (cs : List Char) : Option (List TokenTree) :=
  assemble (cs.length + 1) pos cs [] []

/-- The byte order mark. -/
def byteOrderMark : Char := Char.ofNat 0xfeff

/-- The token trees of a text. A leading byte order mark is skipped, though it takes a column. -/
def lex (text : String) : Option (List TokenTree) :=
  match text.toList with
  | [] => some []
  | c :: cs => if c = byteOrderMark then lexAt ⟨1, 1⟩ cs else lexAt ⟨1, 0⟩ (c :: cs)

/-- The one identifier that a text consists of, blanks and comments around it aside. -/
def identifier? (text : String) : Option (String × Position) :=
  match lex text with
  | some [.leaf pos (.ident name)] => if isKeyword name then none else some (name, pos)
  | _ => none

end FieldGraft

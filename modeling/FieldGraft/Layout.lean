import FieldGraft.Layout.Items

/-!
# Layout of source files

`layout n` lays out code that is nested at most `n` goals deep. Every nested goal is about a piece
with fewer tokens or about one of a fixed number of wrappers around it, so a bound linear in the
number of tokens is never reached.
-/

namespace FieldGraft

/-- The rule of each goal, given a layout for what is nested. -/
def Layout.rules (l : Layout) : Layout
  | .expr lineStart => l.exprDocs lineStart
  | .link lineStart => l.linkDocs lineStart
  | .type => l.typeDocs
  | .bound => l.boundDocs
  | .pattern => l.patternDocs
  | .stmt isLast => l.stmtDocs isLast
  | .item => fun c => match c with
    | .item i => l.itemDocs i
    | c => l.associated c

/-- The layout for code nested at most that deep. Beyond it, tokens are written one by one. -/
def layout : Nat → Layout
  | 0 => fun _ c => [.text c.text]
  | depth + 1 => (layout depth).rules

/-- The text of a file: the line of a script, inner attributes, items. -/
def File.render (f : File) : String :=
  let l := layout (8 * TokenTree.sizeList f.trees + 8)
  let script : List Doc := match f.shebang with
    | some s => [.text s, .hard]
    | none => []
  Doc.render (script ++ l.attributes f.attrs ++ f.items.flatMap (fun i => l .item (.item i)))

end FieldGraft

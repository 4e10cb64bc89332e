import FieldGraft.Text.Width

/-!
# Tables

A table has a header and rows of cells. It is drawn with one blank on both sides of each cell; a
column is as wide as the widest line in it, and a row as high as its highest cell.

* `Border` holds the characters that a table is drawn with.
* `Table.render` draws a table.
-/

namespace FieldGraft

/-- A horizontal rule: its left end, its line, its crossings with columns and its right end. -/
structure Rule where
  left : String
  line : String
  cross : String
  right : String
deriving DecidableEq, Repr, Inhabited

/-- The characters that a table is drawn with. -/
structure Border where
  top : Rule
  header : Rule
  /-- Between two rows; there may be nothing. -/
  between : Option Rule
  bottom : Rule
  /-- At the outer sides of a row. -/
  side : String
  /-- Between two cells. -/
  divider : String
deriving DecidableEq, Repr, Inhabited

namespace Border

/-- Box-drawing characters, with no rule between rows. -/
def boxed : Border where
  top := ⟨"┌", "─", "┬", "┐"⟩
  header := ⟨"╞", "═", "╪", "╡"⟩
  between := none
  bottom := ⟨"└", "─", "┴", "┘"⟩
  side := "│"
  divider := "┆"

/-- Characters of every keyboard, with a rule between rows. -/
def plain : Border where
  top := ⟨"+", "-", "+", "+"⟩
  header := ⟨"+", "=", "=", "+"⟩
  between := some ⟨"|", "-", "+", "|"⟩
  bottom := ⟨"+", "-", "+", "+"⟩
  side := "|"
  divider := "|"

end Border

/-- A header and rows; each is a list of cells, one for each column. -/
structure Table where
  header : List String
  rows : List (List String)
deriving DecidableEq, Repr, Inhabited

namespace Table

/-- The width of the widest line of a cell. -/
def cellWidth (cell : String) : Nat :=
  ((Text.lines cell).map Text.width).foldl max 0

/-- The larger of two widths, column by column. -/
def widen : List Nat → List Nat → List Nat
  | a :: as, b :: bs => max a b :: widen as bs
  | as, [] => as
  | [], bs => bs

/-- The widths of the columns. -/
def widths (t : Table) : List Nat :=
  (t.rows.map (fun r => r.map cellWidth)).foldl widen (t.header.map cellWidth)

/-- A rule over columns of the given widths. -/
def ruleText (r : Rule) (columns : List Nat) : String :=
  let pieces := columns.map (fun w => String.join (List.replicate (w + 2) r.line))
  r.left ++ r.cross.intercalate pieces ++ r.right

/-- One line of a row. -/
def lineText (b : Border) (columns : List Nat) (cells : List String) : String :=
  let padded := (columns.zip cells).map (fun (w, c) => " " ++ Text.padTo w c ++ " ")
  b.side ++ b.divider.intercalate padded ++ b.side

/-- The lines of a row. -/
def rowLines (b : Border) (columns : List Nat) (row : List String) : List String :=
  let cells := row.map Text.lines
  let height := (cells.map List.length).foldl max 0
  (List.range height).map fun n =>
    lineText b columns (cells.map (fun ls => (ls.drop n).head?.getD ""))

/-- The lines of all rows, with rules between them. -/
def bodyLines (b : Border) (columns : List Nat) : List (List String) → List String
  | [] => []
  | [row] => rowLines b columns row
  | row :: rest =>
    rowLines b columns row ++ (b.between.map (fun r => ruleText r columns)).toList ++
      bodyLines b columns rest

/-- Draws a table; the last line has no line end. -/
def render (t : Table) (b : Border) : String :=
  let columns := t.widths
  "\n".intercalate
    (ruleText b.top columns :: rowLines b columns t.header ++ ruleText b.header columns ::
      bodyLines b columns t.rows ++ [ruleText b.bottom columns])

end Table

end FieldGraft

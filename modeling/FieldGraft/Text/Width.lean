import FieldGraft.Text.Ligature

/-!
# Display width

How many columns of a terminal a text takes. Text in a table is aligned by this width. A text is
measured from its end, since the columns of a character depend on what follows it.

* `width` is the number of columns.
-/

namespace FieldGraft.Text

/-- The columns that a character takes by itself. -/
def charWidth (c : Char) : Nat :=
  let n := c.toNat
  if n < 0x80 then 1
  else if n = 0x17d8 then 3
  else if inBounds narrowestBounds n then 0
  else if inBounds wideBounds n then 2
  else 1

/-- The width of a text, with what a character before the text can see of it. -/
structure Measured where
  columns : Int := 0
  /-- The form that a selector in front asks for. -/
  form : Option Form := none
  opening : Opening := .plain
deriving DecidableEq, Repr, Inhabited

namespace Measured

/-- The text with a character in front that adds some columns. -/
def grow (m : Measured) (columns : Int) (opening : Opening) : Measured :=
  { columns := m.columns + columns, opening }

/-- The text with a selector in front. -/
def select (m : Measured) (form : Form) : Measured :=
  { columns := m.columns, form := some form,
    opening := if m.opening.showsThrough form then m.opening else .plain }

/-- The text as seen by a character that has no emoji form, so that a selector does nothing. -/
def ignoringSelector (m : Measured) : Measured :=
  match m.form, m.opening with
  | some .emoji, .joinedEmoji => { columns := m.columns }
  | some .emoji, .joinedKeycap => { columns := m.columns }
  | some .emoji, opening => { columns := m.columns, opening }
  | _, _ => m

/-- The text with a character in front whose form no selector changes. -/
def prepend (c : Char) (m : Measured) : Measured :=
  if c.toNat ≤ 0xa0 then
    m.grow (if c = '\r' && m.opening = .lineFeed then 0 else 1) (.ofChar c)
  else if c = emojiSelector then m.select .emoji
  else if c = textSelector then m.select .text
  else if m.form = some .text && hasTextForm c then m.grow 1 .plain
  else
    match m.opening.ligature? c with
    | some (columns, opening) => m.grow columns opening
    | none => m.grow (charWidth c) (.ofChar c)

/-- The text with a character in front. -/
def push (c : Char) (m : Measured) : Measured :=
  if m.form = some .emoji && hasEmojiForm c then
    m.grow (if m.opening = .joinedEmoji || m.opening = .joinedKeycap then 0 else 2) .emoji
  else m.ignoringSelector.prepend c

end Measured

/-- The columns that a text takes. -/
def width (s : String) : Nat :=
  (s.toList.foldr Measured.push {}).columns.toNat

/-- Fills a text up with blanks to a number of columns. -/
def padTo (columns : Nat) (s : String) : String :=
  s ++ String.ofList (List.replicate (columns - width s) ' ')

/-- The lines of a text. -/
def lines (s : String) : List String :=
  (go s.toList).map String.ofList
where
  /-- Cuts at line feeds. -/
  go : List Char → List (List Char)
  | [] => [[]]
  | c :: cs =>
    match go cs with
    | l :: ls => if c = '\n' then [] :: l :: ls else (c :: l) :: ls
    | [] => [[c]]

end FieldGraft.Text

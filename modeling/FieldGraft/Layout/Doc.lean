/-!
# Documents

A document is text with places where a line may end. Places are grouped: a group that fits on the
rest of the line ends no line at all; of a group that does not fit, every place ends a line if it is
consistent, and only those places after which the text does not fit if it is not.

* `Doc.width` is the width of a document on one line.
* `Doc.reach` is the width up to the next place of the same group or of one around it. What stands
  there has to fit too, since nothing can move it to the next line.
* `Doc.render` writes a document. Lines hold 89 bytes, but deep indentation never leaves less room
  than 60.
-/

namespace FieldGraft

/-- A place where a line may end. -/
structure Break where
  /-- The spaces that stand there if the line does not end. -/
  blank : Nat := 0
  /-- What the next line is indented by, beyond its group. -/
  offset : Int := 0
  /-- Written before the line ends. -/
  before : String := ""
  /-- Written at the start of the next line. -/
  after : String := ""
  /-- Written if the line does not end. -/
  otherwise : String := ""
  /-- The line does not end here in any case. -/
  never : Bool := false
deriving DecidableEq, Repr, Inhabited

/-- A document. -/
inductive Doc where
  | text (s : String)
  | line (b : Break)
  /-- A group whose lines are indented by `indent` more. One that is wider than its limit counts as
  too wide for any line. -/
  | group (indent : Int) (consistent : Bool) (limit : Option Nat) (parts : List Doc)
deriving Repr, Inhabited

namespace Doc

/-- A width that fits on no line. -/
def unbounded : Nat := 65535

mutual

/-- The width of a document on one line, in bytes. -/
def width : Doc → Nat
  | text s => s.utf8ByteSize
  | line b => b.blank
  | group _ _ limit parts =>
    let w := widthList parts
    match limit with
    | some l => if l < w then w + unbounded else w
    | none => w

/-- The width of a sequence. -/
def widthList : List Doc → Nat
  | [] => 0
  | d :: ds => d.width + widthList ds

end

/-- The width of a sequence up to its first place; `rest` is what follows the sequence. -/
def reach (rest : Nat) : List Doc → Nat
  | [] => rest
  | line _ :: _ => 0
  | d :: ds => d.width + reach rest ds

/-- How far writing has come. -/
structure Pen where
  /-- The finished text, last piece first. -/
  out : List String := []
  /-- What is left of the line. -/
  room : Int := 89
  /-- The indentation of the current group. -/
  indent : Int := 0
  /-- Spaces that are due before the next text. -/
  due : Nat := 0

namespace Pen

/-- The width of a line. -/
def margin : Int := 89

/-- The room that a line has at least. -/
def leastRoom : Int := 60

/-- Writes the spaces that are due, and a text. -/
def put (p : Pen) (s : String) : Pen :=
  { p with out := s :: "".pushn ' ' p.due :: p.out, due := 0 }

/-- Writes a text on the line. -/
def write (p : Pen) (s : String) : Pen :=
  let p := p.put s
  { p with room := p.room - s.utf8ByteSize }

/-- Passes a place without ending the line. -/
def stay (p : Pen) (b : Break) : Pen :=
  let p := { p with due := p.due + b.blank, room := p.room - b.blank }
  if b.otherwise = "" then p else p.write b.otherwise

/-- Ends the line at a place. -/
def turn (p : Pen) (b : Break) : Pen :=
  let p := if b.before = "" then p else p.put b.before
  let indent := p.indent + b.offset
  let p := { p with
    out := "\n" :: p.out, due := indent.toNat, room := max (margin - indent) leastRoom }
  if b.after = "" then p else p.write b.after

end Pen

/-- How the places of a group are treated. -/
inductive Mode where
  | fits
  | broken (consistent : Bool)
deriving DecidableEq, Repr, Inhabited

/-- Whether a line goes on at a place that `size` bytes follow. -/
def goesOn (mode : Mode) (b : Break) (size : Nat) (room : Int) : Bool :=
  b.never || match mode with
    | .fits => true
    | .broken true => false
    | .broken false => (size : Int) ≤ room

mutual

/-- Writes a document that `rest` bytes follow up to the next place. -/
def put (mode : Mode) (rest : Nat) (p : Pen) : Doc → Pen
  | text s => p.write s
  | line b => if goesOn mode b (b.blank + rest) p.room then p.stay b else p.turn b
  | group indent consistent limit parts =>
    if p.room < ((group indent consistent limit parts).width + rest : Nat) then
      let q := putList (.broken consistent) rest { p with indent := p.indent + indent } parts
      { q with indent := p.indent }
    else putList .fits rest p parts

/-- Writes a sequence that `rest` bytes follow up to the next place. -/
def putList (mode : Mode) (rest : Nat) (p : Pen) : List Doc → Pen
  | [] => p
  | d :: ds => putList mode rest (put mode (reach rest ds) p d) ds

end

/-- The text of a sequence of documents. -/
def render (ds : List Doc) : String :=
  let p := put (.broken false) 0 {} (group 0 true none ds)
  String.join p.out.reverse

/-! ### Building documents -/

/-- A place with a space. -/
def space : Doc := line { blank := 1 }

/-- A place without a space. -/
def zero : Doc := line {}

/-- A place where the line always ends. -/
def hard : Doc := line { blank := unbounded }

/-- A place where the line never ends. It cuts the reach of what stands before it. -/
def never : Doc := line { never := true }

/-- A group of which every place ends a line, or none. -/
def consistent (indent : Int) (parts : List Doc) : Doc :=
  group indent true none parts

/-- A group of which as few places as possible end a line. -/
def inconsistent (indent : Int) (parts : List Doc) : Doc :=
  group indent false none parts

/-- A comma after the last member of a list, which is written only before the end of a line. -/
def lastComma (blank : Nat) : Doc := line { blank, before := "," }

/-- Moves the next line at the last place of a sequence. -/
def shiftLast (offset : Int) : List Doc → List Doc
  | [] => []
  | [line b] => [line { b with offset := b.offset + offset }]
  | [d] => [d]
  | d :: e :: ds => d :: shiftLast offset (e :: ds)

/-- Members separated by commas; `blank` is the space at the end if no line ends there. -/
def commaList (blank : Nat) : List (List Doc) → List Doc
  | [] => []
  | [ds] => ds ++ [lastComma blank]
  | ds :: es :: rest => ds ++ [text ",", space] ++ commaList blank (es :: rest)

/-- One step of indentation. -/
def step : Int := 4

/-- Members between brackets, either on one line or each on its own. -/
def bracketed (opening closing : String) (members : List (List Doc)) : List Doc :=
  if members.isEmpty then [text (opening ++ closing)]
  else
    [text opening, consistent step (shiftLast (-step) (zero :: commaList 0 members)), text closing]

end Doc

end FieldGraft

import FieldGraft.Source.Code

/-!
# Reading token trees

A parser consumes token trees from the front of a list and may fail with a message. Delimited groups
are read by running a parser on their content. Tokens left over in a group do not stop the reading;
they are an error once the whole text has been read, so `Cursor.leftover` remembers the first such
group.

Operators are glued runs of punctuation characters. Reading the operator `s` takes exactly the
characters of `s`, whatever is glued behind them, so that `>>` closes two argument lists.
-/

namespace FieldGraft

/-- Why a token list is refused. -/
structure SyntaxError where
  /-- The tokens ended where `text` was found to fail. -/
  atEnd : Bool
  text : String
deriving DecidableEq, Repr, Inhabited

/-- The text shown to the user. -/
def SyntaxError.message (e : SyntaxError) : String :=
  if e.atEnd then "unexpected end of input, " ++ e.text else e.text

/-- What is left to read. -/
structure Cursor where
  trees : List TokenTree
  /-- The first group in which tokens were left over. -/
  leftover : Option Delimiter := none

/-- A reader of token trees. -/
abbrev Parser := StateT Cursor (Except SyntaxError)

/-! ### Looking ahead -/

namespace Ahead

/-- The rest after the operator `cs`. -/
def dropOp? : List Char → List TokenTree → Option (List TokenTree)
  | [], ts => some ts
  | [c], .leaf _ (.punct d _) :: ts => if c = d then some ts else none
  | c :: cs, .leaf _ (.punct d joint) :: ts => if c = d ∧ joint then dropOp? cs ts else none
  | _, _ => none

/-- An operator stands at the front. -/
def op (s : String) (ts : List TokenTree) : Bool :=
  (dropOp? s.toList ts).isSome

/-- The keyword `s` stands at the front. -/
def keyword (s : String) : List TokenTree → Bool
  | .leaf _ (.ident t) :: _ => t == s
  | _ => false

/-- One of the keywords stands at the front. -/
def keywords (ss : List String) (ts : List TokenTree) : Bool :=
  ss.any (fun s => keyword s ts)

/-- A name that is not a keyword stands at the front. -/
def ident : List TokenTree → Bool
  | .leaf _ (.ident t) :: _ => !isKeyword t
  | _ => false

/-- A name or keyword stands at the front. -/
def anyIdent : List TokenTree → Bool
  | .leaf _ (.ident _) :: _ => true
  | _ => false

/-- A lifetime stands at the front. -/
def lifetime : List TokenTree → Bool
  | .leaf _ (.lifetime _) :: _ => true
  | _ => false

/-- A group with the given brackets stands at the front. -/
def group (d : Delimiter) : List TokenTree → Bool
  | .group _ e _ :: _ => d = e
  | _ => false

/-- The text starts with a digit. -/
def isNumeric (text : String) : Bool :=
  text.toList.head?.any Char.isDigit

/-- A literal stands at the front; a number may have a minus sign. -/
def literal : List TokenTree → Bool
  | .leaf _ (.literal _) :: _ => true
  | .leaf _ (.ident t) :: _ => t == "true" || t == "false"
  | .leaf _ (.punct '-' _) :: .leaf _ (.literal t) :: _ => isNumeric t
  | _ => false

/-- A string literal stands at the front. -/
def stringLiteral : List TokenTree → Bool
  | .leaf _ (.literal t) :: _ => t.toList.head?.any (fun c => c == '"' || c == 'r')
  | _ => false

/-- A path can start here, in any position where keywords such as `self` may head one. -/
def pathStart (ts : List TokenTree) : Bool :=
  ident ts || keywords ["self", "Self", "super", "crate"] ts || op "::" ts

end Ahead

namespace Parser

/-- The trees not yet read. -/
def look : Parser (List TokenTree) := do
  return (← get).trees

/-- Everything has been read. -/
def atEnd : Parser Bool := do
  return (← look).isEmpty

/-- Fails at the place reached, naming the end of input if that is where it is. -/
def fail {α : Type} (text : String) : Parser α := do
  throw ⟨← atEnd, text⟩

/-- Fails with exactly this text. -/
def failWith {α : Type} (text : String) : Parser α :=
  throw ⟨false, text⟩

/-- Goes on reading at `ts`. -/
def moveTo (ts : List TokenTree) : Parser Unit :=
  modify (fun c => { c with trees := ts })

/-- The trees read since `start`. -/
def readSince (start : List TokenTree) : Parser (List TokenTree) := do
  return start.take (start.length - (← look).length)

/-- Takes one tree, whatever it is. -/
def next (expected : String) : Parser TokenTree := do
  match ← look with
  | [] => fail expected
  | t :: ts => moveTo ts; return t

/-- Reads the operator `s`. -/
def op (s : String) : Parser Code := do
  let ts ← look
  match Ahead.dropOp? s.toList ts with
  | some rest =>
    moveTo rest
    return .op ((ts.head?.map TokenTree.pos).getD {}) s
  | none => failWith s!"expected `{s}`"

/-- Reads the operator `s` if it is there. -/
def op? (s : String) : Parser (List Code) := do
  if Ahead.op s (← look) then return [← op s] else return []

/-- Reads the keyword `s`. -/
def keyword (s : String) : Parser Code := do
  match ← look with
  | .leaf pos (.ident t) :: ts =>
    if t = s then
      moveTo ts
      return .tree (.leaf pos (.ident t))
    else fail s!"expected `{s}`"
  | _ => fail s!"expected `{s}`"

/-- Reads the keyword `s` if it is there. -/
def keyword? (s : String) : Parser (List Code) := do
  if Ahead.keyword s (← look) then return [← keyword s] else return []

/-- Reads a name or keyword. -/
def anyIdent : Parser Word := do
  match ← look with
  | .leaf pos (.ident t) :: ts => moveTo ts; return ⟨t, pos⟩
  | _ => fail "expected ident"

/-- Reads a name that is not a keyword. -/
def ident : Parser Word := do
  match ← look with
  | .leaf pos (.ident t) :: ts =>
    if isKeyword t then fail s!"expected identifier, found keyword `{t}`"
    else
      moveTo ts
      return ⟨t, pos⟩
  | _ => fail "expected identifier"

/-- The code of a name. -/
def word (w : Word) : Code :=
  .tree w.tree

/-- Reads a lifetime. -/
def lifetime : Parser Code := do
  match ← look with
  | .leaf pos (.lifetime t) :: ts => moveTo ts; return .tree (.leaf pos (.lifetime t))
  | _ => fail "expected lifetime"

/-- Reads a lifetime if one is there. -/
def lifetime? : Parser (List Code) := do
  if Ahead.lifetime (← look) then return [← lifetime] else return []

/-- Reads a literal with its sign. -/
def literal : Parser (List Code) := do
  let ts ← look
  if !Ahead.literal ts then fail "expected literal"
  else
    match ts with
    | .leaf pos (.punct '-' _) :: t :: rest =>
      moveTo rest
      return [.op pos "-", .tree t]
    | t :: rest => moveTo rest; return [.tree t]
    | [] => fail "expected literal"

/-- What is expected in place of a missing group. -/
def groupName : Delimiter → String
  | .paren => "parentheses"
  | .bracket => "square brackets"
  | .brace => "curly braces"

/-- Runs `p` on the content of a group. Content that `p` leaves over is remembered. -/
def inGroup {α : Type} (d : Delimiter) (p : Parser α) : Parser (Position × α) := do
  match ← look with
  | .group pos e body :: ts =>
    if e = d then
      let outer ← get
      set { outer with trees := body }
      let a ← p
      let inner ← get
      let leftover :=
        match inner.leftover with
        | some l => some l
        | none => if inner.trees.isEmpty then none else some d
      set { trees := ts, leftover : Cursor }
      return (pos, a)
    else fail ("expected " ++ groupName d)
  | _ => fail ("expected " ++ groupName d)

/-- A group whose content `p` reads. -/
def groupOf (d : Delimiter) (p : Parser (List Code)) : Parser Code := do
  let (pos, parts) ← inGroup d p
  return .group pos d parts

/-- A group taken as it is. -/
def rawGroup : Parser (Delimiter × Code) := do
  match ← look with
  | t@(.group _ d _) :: ts => moveTo ts; return (d, .tree t)
  | _ => fail "expected one of: parentheses, curly braces, square brackets"

/-- Whether `p` reads the trees ahead; nothing is consumed. -/
def succeeds {α : Type} (p : Parser α) : Parser Bool := do
  match p.run (← get) with
  | .ok _ => return true
  | .error _ => return false

/-- Reads with `p` if it succeeds, and nothing otherwise. -/
def attempt? {α : Type} (p : Parser α) : Parser (Option α) := do
  match p.run (← get) with
  | .ok (a, c) => set c; return some a
  | .error _ => return none

/-- Repeats a step until it says to stop, at most `fuel` times. -/
def iterate {σ : Type} (step : σ → Parser (σ × Bool)) : Nat → σ → Parser σ
  | 0, s => return s
  | fuel + 1, s => do
    let (s', again) ← step s
    if again then iterate step fuel s' else return s'

/-- Repeats a step that reads at least one tree each time. -/
def loop {σ : Type} (s : σ) (step : σ → Parser (σ × Bool)) : Parser σ := do
  iterate step ((← look).length + 1) s

/-- Reads with `p` until everything is read. -/
def untilEnd {α : Type} (p : Parser α) : Parser (List α) := do
  let read ← loop ([] : List α) fun done => do
    if ← atEnd then return (done, false)
    let a ← p
    return (a :: done, true)
  return read.reverse

/-- Reads `p`s separated by commas until everything is read, and whether a comma ends the list. -/
def terminated {α : Type} (p : Parser α) : Parser (List α × Bool) := do
  let (read, trailing) ← loop (([] : List α), false) fun (done, trailing) => do
    if ← atEnd then return ((done, trailing), false)
    let a ← p
    if ← atEnd then return ((a :: done, false), false)
    let _ ← op ","
    return ((a :: done, true), true)
  return (read.reverse, trailing)

/-- Reads code separated by commas until everything is read; the commas stay in the list. -/
def terminatedCode (p : Parser Code) : Parser (List Code) := do
  let parts ← loop ([] : List Code) fun done => do
    if ← atEnd then return (done, false)
    let a ← p
    if ← atEnd then return (a :: done, false)
    let comma ← op ","
    return (comma :: a :: done, true)
  return parts.reverse

/-- The message for tokens left over in a group. -/
def leftoverText : Delimiter → String
  | .paren => "unexpected token, expected `)`"
  | .bracket => "unexpected token, expected `]`"
  | .brace => "unexpected token, expected `\x7d`"

/-- Reads a whole token list. -/
def runAll {α : Type} (p : Parser α) (ts : List TokenTree) : Except SyntaxError α := do
  let (a, c) ← p.run { trees := ts }
  match c.leftover with
  | some d => throw ⟨false, leftoverText d⟩
  | none => if c.trees.isEmpty then return a else throw ⟨false, "unexpected token"⟩

end Parser

end FieldGraft

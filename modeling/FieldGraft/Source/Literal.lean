import FieldGraft.Source.Lexeme

/-!
# The values of literals

`stringValue?` reads a string literal, cooked or raw; `integerValue?` reads an integer literal of
any base, ignoring underscores and its suffix. Both take the literal as written.
-/

namespace FieldGraft.Literal

open Text

/-- The character that a one-letter escape stands for. -/
def simpleEscape? : Char → Option Char
  | 'n' => some '\n'
  | 'r' => some '\r'
  | 't' => some '\t'
  | '\\' => some '\\'
  | '0' => some (Char.ofNat 0)
  | '\'' => some '\''
  | '"' => some '"'
  | _ => none

/-- The text up to the closing quote. A line break after a backslash swallows the blanks that
follow, and a carriage return before a line feed is dropped. -/
def cooked : Nat → List Char → Option (List Char)
  | 0, _ => none
  | _ + 1, [] => none
  | _ + 1, '"' :: _ => some []
  | fuel + 1, '\r' :: '\n' :: cs => (cooked fuel cs).map ('\n' :: ·)
  | fuel + 1, '\\' :: 'x' :: a :: b :: cs =>
    (cooked fuel cs).map (Char.ofNat (16 * hexValue a + hexValue b) :: ·)
  | fuel + 1, '\\' :: 'u' :: cs =>
    match Lexeme.bracedScalar cs with
    | some (n, value) => (cooked fuel (cs.drop n)).map (Char.ofNat value :: ·)
    | none => none
  | fuel + 1, '\\' :: c :: cs =>
    match simpleEscape? c with
    | some d => (cooked fuel cs).map (d :: ·)
    | none => if c = '\n' || c = '\r' then cooked fuel (cs.dropWhile isBlank) else none
  | fuel + 1, c :: cs => (cooked fuel cs).map (c :: ·)

/-- The text of a raw string literal from its hashes on. -/
def raw (cs : List Char) : Option (List Char) :=
  let hashes := Lexeme.runLength (· == '#') cs
  match cs.drop hashes with
  | '"' :: rest =>
    (Lexeme.rawBody .text hashes rest).map (fun n => rest.take (n - hashes - 1))
  | _ => none

/-- The text that a string literal denotes. -/
def stringValue? (text : String) : Option String :=
  match text.toList with
  | '"' :: cs => (cooked (cs.length + 1) cs).map String.ofList
  | 'r' :: cs => (raw cs).map String.ofList
  | _ => none

/-- Whether the rest of a decimal number from its `e` on is an exponent rather than a suffix. -/
def isExponent (cs : List Char) : Bool :=
  let run := cs.takeWhile (fun c => isDigit c || c == '_')
  let rest := cs.drop run.length
  match rest with
  | c :: _ => c = '+' || c = '-' || run.any isDigit
  | [] => run.any isDigit

/-- The digits of an integer in a base; `none` if they are those of another kind of number. -/
def digits (base : Nat) (seen : Bool) (value : Nat) : List Char → Option Nat
  | [] => if seen then some value else none
  | c :: cs =>
    if isDigit c || (base == 16 && isHexDigit c) then
      if hexValue c < base then digits base true (base * value + hexValue c) cs else none
    else if c = '_' then digits base seen value cs
    else if base == 10 && c = '.' then none
    else if base == 10 && (c = 'e' || c = 'E') && isExponent cs then none
    else if seen && isNameStart c then some value else none

/-- The number that an integer literal denotes. -/
def integerValue? (text : String) : Option Nat :=
  match text.toList with
  | '0' :: 'x' :: cs => digits 16 false 0 cs
  | '0' :: 'o' :: cs => digits 8 false 0 cs
  | '0' :: 'b' :: cs => digits 2 false 0 cs
  | c :: cs => if isDigit c then digits 10 false 0 (c :: cs) else none
  | [] => none

end FieldGraft.Literal

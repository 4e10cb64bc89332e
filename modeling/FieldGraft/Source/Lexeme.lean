import FieldGraft.Text.Blank
import FieldGraft.Text.Identifier
import FieldGraft.Text.Search
import FieldGraft.Source.Token

/-!
# Lexemes

How far the lexeme at the front of a text reaches. Every function here answers with a length, and
`none` where no lexeme of its kind starts; the token list is assembled from these lengths.
-/

namespace FieldGraft.Lexeme

open Text

/-- The length of the longest front part whose characters satisfy `p`. -/
def runLength (p : Char → Bool) (cs : List Char) : Nat :=
  (cs.takeWhile p).length

/-! ### Names -/

/-- A name without `r#`. -/
def plainName : List Char → Option Nat
  | [] => none
  | c :: cs => if isNameStart c then some (1 + runLength isNameContinue cs) else none

/-- The names that have no raw form. -/
def unrawable : List String :=
  ["_", "super", "self", "Self", "crate"]

/-- A name, raw or not. -/
def anyName : List Char → Option Nat
  | 'r' :: '#' :: cs =>
    match plainName cs with
    | some n => if unrawable.contains (String.ofList (cs.take n)) then none else some (2 + n)
    | none => none
  | cs => plainName cs

/-- The starts of literals that would otherwise be taken for names. -/
def literalStarts : List String :=
  ["r\"", "r#\"", "r##", "b\"", "b'", "br\"", "br#", "c\"", "cr\"", "cr#"]

/-- A name that is not the start of a literal. -/
def name (cs : List Char) : Option Nat :=
  if literalStarts.any (startsWith cs) then none else anyName cs

/-! ### Quoted literals -/

/-- What a quoted literal denotes; it decides the escapes and characters allowed inside. -/
inductive Quoted where
  | text
  | bytes
  | cText
deriving DecidableEq, Repr

/-- The value of hexadecimal digits, underscores skipped. -/
def hexDigitsValue (cs : List Char) : Nat :=
  cs.foldl (fun v c => if c = '_' then v else 16 * v + hexValue c) 0

/-- Whether a number is a Unicode scalar value. -/
def isScalar (n : Nat) : Bool :=
  n < 0xd800 || (0xe000 ≤ n && n < 0x110000)

/-- The braced part of a Unicode escape, from the opening brace on: one to six hexadecimal digits,
with underscores after the first. Answers with its length and value. -/
def bracedScalar : List Char → Option (Nat × Nat)
  | '\x7b' :: cs =>
    let body := cs.takeWhile (fun c => isHexDigit c || c == '_')
    let digits := (body.filter (· != '_')).length
    match body, cs.drop body.length with
    | c :: _, '\x7d' :: _ =>
      let value := hexDigitsValue body
      if c != '_' && digits ≤ 6 && isScalar value then some (body.length + 2, value) else none
    | _, _ => none
  | _ => none

/-- A line break after a backslash; it continues the literal on the next line. -/
def lineBreak : List Char → Option Nat
  | '\n' :: _ => some 1
  | '\r' :: '\n' :: _ => some 2
  | _ => none

/-- The part of an escape after its backslash. -/
def escape (kind : Quoted) : List Char → Option Nat
  | 'x' :: a :: b :: _ =>
    match kind with
    | .text => if isDigit a && a ≤ '7' && isHexDigit b then some 3 else none
    | .bytes => if isHexDigit a && isHexDigit b then some 3 else none
    | .cText =>
      if isHexDigit a && isHexDigit b && !(a == '0' && b == '0') then some 3 else none
  | 'u' :: cs =>
    match kind, bracedScalar cs with
    | .text, some (n, _) => some (1 + n)
    | .cText, some (n, value) => if value = 0 then none else some (1 + n)
    | _, _ => none
  | '0' :: _ => if kind = .cText then none else some 1
  | c :: cs =>
    if c = 'n' || c = 'r' || c = 't' || c = '\\' || c = '\'' || c = '"' then some 1
    else lineBreak (c :: cs)
  | [] => none

/-- A character that may not stand in the literal at all. -/
def refuses (kind : Quoted) (c : Char) : Bool :=
  match kind with
  | .text => false
  | .bytes => 0x80 ≤ c.toNat
  | .cText => c.toNat = 0

/-- Up to and including the closing quote of a literal with escapes. -/
def cookedBody (kind : Quoted) : Nat → List Char → Option Nat
  | 0, _ => none
  | _ + 1, [] => none
  | _ + 1, '"' :: _ => some 1
  | fuel + 1, '\\' :: cs =>
    match escape kind cs with
    | some n => (cookedBody kind fuel (cs.drop n)).map (· + n + 1)
    | none => none
  | fuel + 1, '\r' :: cs =>
    match cs with
    | '\n' :: rest => (cookedBody kind fuel rest).map (· + 2)
    | _ => none
  | fuel + 1, c :: cs =>
    if refuses kind c then none else (cookedBody kind fuel cs).map (· + 1)

/-- Up to and including the closing quote and hashes of a raw literal. -/
def rawBody (kind : Quoted) (hashes : Nat) : List Char → Option Nat
  | [] => none
  | '\r' :: '\n' :: cs => (rawBody kind hashes cs).map (· + 2)
  | c :: cs =>
    if c = '"' && runLength (· == '#') (cs.take hashes) == hashes then some (1 + hashes)
    else if c = '\r' || refuses kind c then none
    else (rawBody kind hashes cs).map (· + 1)

/-- A raw literal from its hashes on. -/
def rawQuoted (kind : Quoted) (cs : List Char) : Option Nat :=
  let hashes := runLength (· == '#') cs
  match cs.drop hashes with
  | '"' :: rest =>
    if hashes ≤ 255 then (rawBody kind hashes rest).map (· + hashes + 1) else none
  | _ => none

/-- A string, byte string or C string literal without its suffix. -/
def quotedLiteral : List Char → Option Nat
  | '"' :: cs => (cookedBody .text (cs.length + 1) cs).map (· + 1)
  | 'r' :: cs => (rawQuoted .text cs).map (· + 1)
  | 'b' :: '"' :: cs => (cookedBody .bytes (cs.length + 1) cs).map (· + 2)
  | 'b' :: 'r' :: cs => (rawQuoted .bytes cs).map (· + 2)
  | 'c' :: '"' :: cs => (cookedBody .cText (cs.length + 1) cs).map (· + 2)
  | 'c' :: 'r' :: cs => (rawQuoted .cText cs).map (· + 2)
  | _ => none

/-- One character or escape and the closing quote of a character literal. -/
def characterBody (kind : Quoted) : List Char → Option Nat
  | '\\' :: cs =>
    match escape kind cs, cs with
    | some _, '\n' :: _ => none
    | some _, '\r' :: _ => none
    | some n, _ => if (cs.drop n).head? = some '\'' then some (n + 2) else none
    | none, _ => none
  | c :: '\'' :: _ => if refuses kind c then none else some 2
  | _ => none

/-- A character or byte literal without its suffix. -/
def characterLiteral : List Char → Option Nat
  | '\'' :: cs => (characterBody .text cs).map (· + 1)
  | 'b' :: '\'' :: cs => (characterBody .bytes cs).map (· + 2)
  | _ => none

/-- A suffix such as `u8` after a quoted literal; it may be empty. -/
def suffixLength (cs : List Char) : Nat :=
  (plainName cs).getD 0

/-! ### Numbers -/

/-- A digit or a separator inside a number. -/
def isDigitOrUnderscore (c : Char) : Bool :=
  isDigit c || c == '_'

/-- The exponent after its letter: an optional sign and digits, with underscores anywhere. -/
def exponent (sign value : Bool) : List Char → Option Nat
  | [] => if value then some 0 else none
  | c :: cs =>
    if c = '+' || c = '-' then
      if value then some 0
      else if sign then none
      else (exponent true value cs).map (· + 1)
    else if isDigit c then (exponent sign true cs).map (· + 1)
    else if c = '_' then (exponent sign value cs).map (· + 1)
    else if value then some 0 else none

/-- The digits of a floating-point literal: it has a point, which no name or second point follows,
or an exponent, or both. -/
def floatDigits (cs : List Char) : Option Nat :=
  match cs with
  | [] => none
  | c :: _ =>
    if !isDigit c then none
    else
      let whole := runLength isDigitOrUnderscore cs
      match cs.drop whole with
      | '.' :: rest =>
        if rest.head?.any (fun d => d == '.' || isNameStart d) then none
        else
          let length := whole + 1 + runLength isDigitOrUnderscore rest
          match cs.drop length with
          | 'e' :: tail => some (((exponent false false tail).map (· + length + 1)).getD length)
          | 'E' :: tail => some (((exponent false false tail).map (· + length + 1)).getD length)
          | _ => some length
      | 'e' :: tail => (exponent false false tail).map (· + whole + 1)
      | 'E' :: tail => (exponent false false tail).map (· + whole + 1)
      | _ => none

/-- The digits of an integer in the given base: a decimal digit beyond the base is an error, a
letter beyond it ends the number. `seen` says that a digit was read. -/
def integerRun (base : Nat) (seen : Bool) : List Char → Option Nat
  | [] => if seen then some 0 else none
  | c :: cs =>
    if isDigit c then
      if hexValue c < base then (integerRun base true cs).map (· + 1) else none
    else if isHexDigit c then
      if hexValue c < base then (integerRun base true cs).map (· + 1)
      else if seen then some 0 else none
    else if c = '_' then
      if !seen && base == 10 then none else (integerRun base seen cs).map (· + 1)
    else if seen then some 0 else none

/-- The digits of an integer literal with its base mark. -/
def integerDigits : List Char → Option Nat
  | '0' :: 'x' :: cs => (integerRun 16 false cs).map (· + 2)
  | '0' :: 'o' :: cs => (integerRun 8 false cs).map (· + 2)
  | '0' :: 'b' :: cs => (integerRun 2 false cs).map (· + 2)
  | cs => integerRun 10 false cs

/-- A number and its suffix; no name character may follow. -/
def withSuffix (cs : List Char) (length : Nat) : Option Nat :=
  let whole := length + (plainName (cs.drop length)).getD 0
  if (cs.drop whole).head?.any isNameContinue then none else some whole

/-- A number. -/
def number (cs : List Char) : Option Nat :=
  match (floatDigits cs).bind (withSuffix cs) with
  | some n => some n
  | none => (integerDigits cs).bind (withSuffix cs)

/-- A literal of any kind, suffix included. -/
def literal (cs : List Char) : Option Nat :=
  match quotedLiteral cs with
  | some n => some (n + suffixLength (cs.drop n))
  | none =>
    match characterLiteral cs with
    | some n => some (n + suffixLength (cs.drop n))
    | none => number cs

/-! ### Comments and punctuation -/

/-- Up to the end of the line, which is not included. -/
def lineLength : List Char → Nat
  | [] => 0
  | '\n' :: _ => 0
  | '\r' :: '\n' :: _ => 0
  | _ :: cs => lineLength cs + 1

/-- A block comment from inside `depth` openings to its end. -/
def blockTail : (depth : Nat) → List Char → Option Nat
  | 0, _ => some 0
  | _ + 1, [] => none
  | depth + 1, '/' :: '*' :: cs => (blockTail (depth + 2) cs).map (· + 2)
  | depth + 1, '*' :: '/' :: cs => (blockTail depth cs).map (· + 2)
  | depth + 1, _ :: cs => (blockTail (depth + 1) cs).map (· + 1)

/-- A block comment, nested ones included. -/
def blockComment : List Char → Option Nat
  | '/' :: '*' :: cs => (blockTail 1 cs).map (· + 2)
  | _ => none

/-- A comment that carries no documentation. -/
def plainComment (cs : List Char) : Option Nat :=
  if startsWith cs "//" then
    if (startsWith cs "///" && !startsWith cs "////") || startsWith cs "//!" then none
    else some (lineLength cs)
  else if startsWith cs "/**/" then some 4
  else if startsWith cs "/*" then
    if (startsWith cs "/**" && !startsWith cs "/***") || startsWith cs "/*!" then none
    else blockComment cs
  else none

/-- A documentation comment: its length, whether it documents what encloses it, and its text. -/
def docComment (cs : List Char) : Option (Nat × Bool × List Char) :=
  let line (inner : Bool) : Option (Nat × Bool × List Char) :=
    let n := lineLength (cs.drop 3)
    some (n + 3, inner, (cs.drop 3).take n)
  let block (inner : Bool) : Option (Nat × Bool × List Char) :=
    (blockComment cs).map (fun n => (n, inner, (cs.drop 3).take (n - 5)))
  if startsWith cs "//!" then line true
  else if startsWith cs "/*!" then block true
  else if startsWith cs "///" then line false
  else if startsWith cs "/**" then block false
  else none

/-- A carriage return that no line feed follows; documentation may not hold one. -/
def hasBareReturn : List Char → Bool
  | [] => false
  | '\r' :: '\n' :: cs => hasBareReturn cs
  | '\r' :: _ => true
  | _ :: cs => hasBareReturn cs

/-- A character skipped between tokens. -/
def isSkipped (c : Char) : Bool :=
  isBlank c || c.toNat == 0x200e || c.toNat == 0x200f

/-- The punctuation characters. -/
def punctuation : List Char :=
  "~!@#$%^&*-=+|;:,<.>/?'".toList

/-- Whether a punctuation token starts here; the start of a comment is none. -/
def startsPunct : List Char → Bool
  | '/' :: '/' :: _ => false
  | '/' :: '*' :: _ => false
  | c :: _ => punctuation.contains c
  | [] => false

/-- A lifetime: a quote and a name that is neither closed by a quote nor followed by a hash. -/
def lifetime : List Char → Option Nat
  | '\'' :: cs =>
    match anyName cs with
    | some n =>
      let next := (cs.drop n).head?
      if next = some '\'' || (next = some '#' && !startsWith cs "r#") then none else some (n + 1)
    | none => none
  | _ => none

end FieldGraft.Lexeme

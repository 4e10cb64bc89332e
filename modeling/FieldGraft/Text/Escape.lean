import FieldGraft.Text.CodePoints
import FieldGraft.Text.PrintableTable
import FieldGraft.Text.Search

/-!
# Escaped text

Two ways of writing a text between double quotes. `quote` is the literal put into generated code;
`debug` is the form used in log records. Both keep printable characters and write the others as
escapes; they differ in the null character alone.
-/

namespace FieldGraft.Text

/-- Printable as it stands. -/
def isPrintable (c : Char) : Bool :=
  if c.toNat < 0x80 then 0x20 ≤ c.toNat && c.toNat < 0x7f
  else inBounds printableBounds c.toNat

/-- Combines with the character before it, so it is not shown alone. -/
def isExtending (c : Char) : Bool :=
  if c.toNat < 0x80 then false else inBounds extendBounds c.toNat

/-- One character inside double quotes. -/
def escapeChar (c : Char) : List Char :=
  if c = '\t' then ['\\', 't']
  else if c = '\r' then ['\\', 'r']
  else if c = '\n' then ['\\', 'n']
  else if c = '\\' then ['\\', '\\']
  else if c = '"' then ['\\', '"']
  else if c.toNat = 0 then ['\\', '0']
  else if isPrintable c && !isExtending c then [c]
  else ['\\', 'u', '\x7b'] ++ (hex c.toNat).toList ++ ['\x7d']

/-- The characters of a log text. -/
def debugChars (cs : List Char) : List Char :=
  cs.flatMap escapeChar

/-- A text as it appears in log records. -/
def debug (s : String) : String :=
  String.ofList ('"' :: debugChars s.toList ++ ['"'])

/-- A digit that a preceding `\0` would run into. -/
def isOctal (c : Char) : Bool :=
  '0' ≤ c && c ≤ '7'

/-- The characters between the quotes of a generated literal. A null before an octal digit is
written `\x00`, so that it is not taken for an octal escape. -/
def quoteChars : List Char → List Char
  | [] => []
  | [c] => escapeChar c
  | c :: d :: rest =>
    if c.toNat = 0 ∧ isOctal d then ['\\', 'x', '0', '0'] ++ quoteChars (d :: rest)
    else escapeChar c ++ quoteChars (d :: rest)

/-- The string literal that denotes a text. -/
def quote (s : String) : String :=
  String.ofList ('"' :: quoteChars s.toList ++ ['"'])

end FieldGraft.Text

import FieldGraft.Text.Blank

/-!
# Numbers, dates and times

A TOML value that starts with neither a quote nor a bracket is one word. The word is a truth value,
a number within the limits of a 64-bit integer or float, a date, a time, or nothing.
-/

namespace FieldGraft.Toml

/-- A decimal digit. -/
def isDigit (c : Char) : Bool :=
  '0' ≤ c && c ≤ '9'

/-- A digit in the given base. -/
def isDigitIn (base : Nat) (c : Char) : Bool :=
  let n := c.toNat
  let value :=
    if isDigit c then n - 48
    else if 'a' ≤ c && c ≤ 'f' then n - 87
    else if 'A' ≤ c && c ≤ 'F' then n - 55
    else 16
  value < base

/-- The value of a digit. -/
def digitValue (c : Char) : Nat :=
  let n := c.toNat
  if n < 58 then n - 48 else if n < 71 then n - 55 else n - 87

/-- The number that digits denote in a base. -/
def ofDigits (base : Nat) (cs : List Char) : Nat :=
  cs.foldl (fun n c => n * base + digitValue c) 0

/-- Digits with single underscores between them; the result leaves the underscores out. -/
def digits? (base : Nat) (cs : List Char) : Option (List Char) :=
  let groups := Text.pieces (fun c => c == '_') cs
  if groups.all (fun g => !g.isEmpty && g.all (isDigitIn base)) then some groups.flatten else none

/-- The digits of a decimal integer: no zero at the front of others. -/
def decimal? (cs : List Char) : Option (List Char) :=
  match digits? 10 cs with
  | some ('0' :: _ :: _) => none
  | ds => ds

/-- Takes off a sign; the first component tells whether it was a minus. -/
def signed (cs : List Char) : Bool × List Char :=
  match cs with
  | '-' :: rest => (true, rest)
  | '+' :: rest => (false, rest)
  | _ => (false, cs)

/-- The least number that is too large for a signed integer of 64 bits. -/
def integerLimit : Nat :=
  0x8000000000000000

/-- Whether digits denote an integer of at most 63 bits. -/
def fits (base : Nat) (digits : Option (List Char)) : Bool :=
  match digits with
  | some ds => ofDigits base ds < integerLimit
  | none => false

/-- An integer. -/
def isInteger (cs : List Char) : Bool :=
  match cs with
  | '0' :: 'x' :: ds => fits 16 (digits? 16 ds)
  | '0' :: 'o' :: ds => fits 8 (digits? 8 ds)
  | '0' :: 'b' :: ds => fits 2 (digits? 2 ds)
  | _ =>
    let (negative, ds) := signed cs
    match decimal? ds with
    | some ds => ofDigits 10 ds < integerLimit + (if negative then 1 else 0)
    | none => false

/-- The least number that is rounded to infinity: two to the 1024, less half of the last place. -/
def floatLimit : Nat :=
  (1 <<< 1024) - (1 <<< 970)

/-- Whether the number with these digits, times a power of ten, is too large for a float. -/
def overflows (digits : List Char) (exponent : Int) : Bool :=
  let m := ofDigits 10 digits
  if m = 0 then false
  else if exponent < 0 then
    let places := exponent.natAbs
    places < digits.length && floatLimit * Nat.pow 10 places ≤ m
  else 400 < exponent || floatLimit ≤ m * Nat.pow 10 exponent.toNat

/-- An exponent. -/
def exponent? (cs : List Char) : Option Int :=
  let (negative, ds) := signed cs
  match digits? 10 ds with
  | some ds => some (if negative then - (ofDigits 10 ds : Int) else ofDigits 10 ds)
  | none => none

/-- The part before the exponent mark, and the exponent. -/
def splitExponent (cs : List Char) : List Char × Option (List Char) :=
  let mantissa := cs.takeWhile (fun c => c != 'e' && c != 'E')
  match cs.dropWhile (fun c => c != 'e' && c != 'E') with
  | _ :: rest => (mantissa, some rest)
  | [] => (mantissa, none)

/-- A float: an integer part, and a fraction or an exponent or both. -/
def isFloat (cs : List Char) : Bool :=
  let (negative, body) := signed cs
  if body = ['i', 'n', 'f'] || body = ['n', 'a', 'n'] then true
  else
    let (mantissa, exponent) := splitExponent body
    let whole := mantissa.takeWhile (fun c => c != '.')
    let fraction := mantissa.dropWhile (fun c => c != '.')
    let places := match fraction with
      | [] => if exponent.isSome then some [] else none
      | _ :: ds => digits? 10 ds
    let power := match exponent with
      | some e => exponent? e
      | none => some 0
    match decimal? whole, places, power with
    | some ws, some fs, some e => negative || !overflows (ws ++ fs) (e - fs.length)
    | _, _, _ => false

/-- Two digits with a value in a range. -/
def isPair (low high : Nat) (a b : Char) : Bool :=
  isDigit a && isDigit b && low ≤ ofDigits 10 [a, b] && ofDigits 10 [a, b] ≤ high

/-- How many days a month has. -/
def monthLength (year month : Nat) : Nat :=
  if month = 2 then
    if year % 4 = 0 && (year % 100 != 0 || year % 400 = 0) then 29 else 28
  else if month = 4 || month = 6 || month = 9 || month = 11 then 30
  else 31

/-- A date; the result is what follows it. -/
def date? (cs : List Char) : Option (List Char) :=
  match cs with
  | y₁ :: y₂ :: y₃ :: y₄ :: '-' :: m₁ :: m₂ :: '-' :: d₁ :: d₂ :: rest =>
    let year := [y₁, y₂, y₃, y₄]
    let days := monthLength (ofDigits 10 year) (ofDigits 10 [m₁, m₂])
    if year.all isDigit && isPair 1 12 m₁ m₂ && isPair 1 days d₁ d₂ then some rest else none
  | _ => none

/-- A fraction of a second; the result is what follows it. -/
def secondFraction? (cs : List Char) : Option (List Char) :=
  match cs with
  | '.' :: d :: rest => if isDigit d then some (rest.dropWhile isDigit) else none
  | _ => some cs

/-- A time of day; the result is what follows it. -/
def time? (cs : List Char) : Option (List Char) :=
  match cs with
  | h₁ :: h₂ :: ':' :: m₁ :: m₂ :: ':' :: s₁ :: s₂ :: rest =>
    if isPair 0 23 h₁ h₂ && isPair 0 59 m₁ m₂ && isPair 0 60 s₁ s₂ then secondFraction? rest
    else none
  | _ => none

/-- The distance to universal time, or nothing. -/
def isOffset (cs : List Char) : Bool :=
  match cs with
  | [] => true
  | [c] => c == 'Z' || c == 'z'
  | [s, h₁, h₂, ':', m₁, m₂] => (s == '+' || s == '-') && isPair 0 23 h₁ h₂ && isPair 0 59 m₁ m₂
  | _ => false

/-- A time of day with its offset. -/
def isFullTime (cs : List Char) : Bool :=
  match time? cs with
  | some rest => isOffset rest
  | none => false

/-- A date without a time. -/
def isDate (cs : List Char) : Bool :=
  date? cs == some []

/-- A date, a date and a time, or a time. -/
def isMoment (cs : List Char) : Bool :=
  match date? cs with
  | some [] => true
  | some (mark :: rest) => (mark == 'T' || mark == 't') && isFullTime rest
  | none => time? cs == some []

end FieldGraft.Toml

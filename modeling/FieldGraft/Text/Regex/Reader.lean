import FieldGraft.Text.Blank
import FieldGraft.Text.Escape
import FieldGraft.Text.Identifier
import FieldGraft.Text.Regex

/-!
# Reading regular expressions

The usual notation: `.`, classes in brackets, `*`, `+`, `?` and counts, `|`, groups, anchors and
escapes. Flags in parentheses change how what follows is read. Neither classes of characters by
their kind, such as all digits of all scripts, nor the case of letters beyond the first 128
characters are known, so an expression that asks for them is refused; the flag `-u` asks for less.

* `Regex.ofText?` reads an expression, or tells what is wrong with it and where.
-/

namespace FieldGraft

/-- A stretch of an expression by its first place and the place after it. -/
structure Stretch where
  first : Nat
  last : Nat
deriving DecidableEq, Repr, Inhabited

/-- Why a text is not a regular expression. -/
inductive RegexFault where
  /-- A complaint about some stretches of the text. -/
  | malformed (spots : List Stretch) (text : String)
  /-- It is well-formed but asks for word boundaries of all scripts. -/
  | unbuildable
deriving DecidableEq, Repr, Inhabited

/-- Marks under stretches of a line, from a column on. -/
def markStretches : Nat → List Stretch → List Char
  | _, [] => []
  | column, s :: rest =>
    let width := max 1 (s.last - s.first)
    List.replicate (s.first - column) ' ' ++ List.replicate width '^' ++
      markStretches (max column s.first + width) rest

/-- The text shown to the user about an expression. -/
def RegexFault.message (pattern : String) : RegexFault → String
  | malformed spots text =>
    let ordered := spots.mergeSort (fun a b => a.first ≤ b.first)
    "regex parse error:\n    " ++ pattern ++ "\n    " ++ String.ofList (markStretches 0 ordered) ++
      "\nerror: " ++ text
  | unbuildable => "error building NFA"

namespace Regex

/-! ### State -/

/-- What flags say about the rest of a group. -/
structure Flags where
  ignoreCase : Bool := false
  multiLine : Bool := false
  dotAll : Bool := false
  withReturn : Bool := false
  allScripts : Bool := true
  ignoreBlanks : Bool := false
deriving DecidableEq, Repr, Inhabited

/-- How far reading has come. -/
structure Cursor where
  rest : List Char
  place : Nat := 0
  flags : Flags := {}
  /-- The names of groups so far. -/
  names : List (String × Stretch) := []
  /-- The first thing asked for that is not available. A malformed rest counts more. -/
  lack : Option RegexFault := none
  /-- Word boundaries of all scripts were asked for. -/
  wordsOfAllScripts : Bool := false

/-- A reader of expressions. -/
abbrev Reader := StateT Cursor (Except RegexFault)

namespace Reader

/-- The next character. -/
def peek : Reader (Option Char) := do
  return (← get).rest.head?

/-- The place reached. -/
def place : Reader Nat := do
  return (← get).place

/-- Goes past one character. -/
def bump : Reader Unit :=
  modify fun c => match c.rest with
    | [] => c
    | _ :: rest => { c with rest, place := c.place + 1 }

/-- Refuses a stretch. -/
def refuse {α : Type} (first last : Nat) (text : String) : Reader α :=
  throw (.malformed [⟨first, last⟩] text)

/-- Refuses the place reached. -/
def refuseHere {α : Type} (text : String) : Reader α := do
  refuse (← place) (← place) text

/-- Refuses the next character. -/
def refuseChar {α : Type} (text : String) : Reader α := do
  refuse (← place) ((← place) + 1) text

/-- Remembers that what a stretch asks for is not available. -/
def missing (first last : Nat) (text : String) : Reader Unit :=
  modify fun c => { c with lack := c.lack.or (some (.malformed [⟨first, last⟩] text)) }

/-- Without blanks and comments in front. -/
def withoutBlanks : Nat → List Char → List Char
  | 0, cs => cs
  | fuel + 1, c :: cs =>
    if Text.isBlank c then withoutBlanks fuel cs
    else if c = '#' then withoutBlanks fuel ((cs.dropWhile (· != '\n')).drop 1)
    else c :: cs
  | _ + 1, [] => []

/-- Goes past blanks and comments where they do not count. -/
def bumpBlanks : Reader Unit :=
  modify fun c =>
    if !c.flags.ignoreBlanks then c
    else
      let rest := withoutBlanks (c.rest.length + 1) c.rest
      { c with rest, place := c.place + (c.rest.length - rest.length) }

/-- Goes past one character and the blanks after it that do not count. -/
def advance : Reader Unit := do
  bump
  bumpBlanks

/-- Goes past a text if it is here. -/
def bumpIf (s : String) : Reader Bool := do
  let c ← get
  if s.toList.isPrefixOf c.rest then
    set { c with rest := c.rest.drop s.length, place := c.place + s.length }
    return true
  else return false

/-- Repeats a step until it says to stop, at most once a character. -/
def loop {σ : Type} (s : σ) (step : σ → Reader (σ × Bool)) : Reader σ := do
  iterate ((← get).rest.length + 1) s
where
  /-- At most `fuel` steps. -/
  iterate : Nat → σ → Reader σ
    | 0, s => return s
    | fuel + 1, s => do
      let (s', again) ← step s
      if again then iterate fuel s' else return s'

end Reader

open Reader

/-! ### Characters and classes -/

/-- Whether case is to be ignored. That is not available for all scripts. -/
def foldsCase (first last : Nat) : Reader Bool := do
  let flags := (← get).flags
  if flags.ignoreCase && flags.allScripts then
    missing first last ("Unicode-aware case insensitivity matching is not available " ++
      "(make sure the unicode-case feature is enabled)")
  return flags.ignoreCase

/-- Refuses what could match a part of a character. -/
def missingPart (first last : Nat) : Reader Unit :=
  missing first last "pattern can match invalid UTF-8"

/-- A character that stands for itself. -/
def literal (first last : Nat) (c : Char) : Reader CharSet := do
  let folds ← foldsCase first last
  return if folds then (CharSet.single c).ignoringCase else .single c

/-- A class by its letter. A capital is for all other characters. -/
def letterClass (first last : Nat) (c : Char) : Reader CharSet := do
  let set := match c.toLower with
    | 'd' => CharSet.digits
    | 's' => CharSet.blanks
    | _ => CharSet.wordCharacters
  if (← get).flags.allScripts then
    missing first last
      "Unicode-aware Perl class not found (make sure the unicode-perl feature is enabled)"
  else if c.isUpper then missingPart first last
  return if c.isUpper then .complement set else set

/-- The classes that have a name between colons. -/
def namedClass? : String → Option CharSet
  | "alnum" => some .alphanumerics
  | "alpha" => some .letters
  | "ascii" => some (.range 0 0x7f)
  | "blank" => some (.ofText "\t ")
  | "cntrl" => some (.union [.range 0 0x1f, .range 0x7f 0x7f])
  | "digit" => some .digits
  | "graph" => some (.between '!' '~')
  | "lower" => some .lowerLetters
  | "print" => some (.between ' ' '~')
  | "punct" =>
    some (.union [.between '!' '/', .between ':' '@', .range 0x5b 0x60, .range 0x7b 0x7e])
  | "space" => some .blanks
  | "upper" => some .upperLetters
  | "word" => some .wordCharacters
  | "xdigit" => some (.union [.digits, .between 'a' 'f', .between 'A' 'F'])
  | _ => none

/-! ### Escapes -/

/-- What an escape stands for. -/
inductive Escape where
  | char (c : Char)
  | set (s : CharSet)
  | look (l : Look)

/-- What is said of an escape that the text breaks off in. -/
def incomplete : String := "incomplete escape sequence, reached end of pattern prematurely"

/-- The character of a number in base 16. -/
def hexChar? (digits : List Char) : Option Char :=
  let n := digits.foldl (fun v d => 16 * v + Text.hexValue d) 0
  if n < 0xd800 || 0xdfff < n && n ≤ 0x10ffff then some (Char.ofNat n) else none

/-- A fixed number of digits in base 16. -/
def hexDigits (count : Nat) : Reader Char := do
  let first ← place
  let digits ← (List.range count).foldlM (fun done i => do
    if i != 0 then advance
    match ← peek with
    | none => refuseHere incomplete
    | some c =>
      if Text.isHexDigit c then return done ++ [c] else refuseChar "invalid hexadecimal digit") []
  advance
  match hexChar? digits with
  | some c => return c
  | none => refuse first (← place) "hexadecimal literal is not a Unicode scalar value"

/-- Digits in base 16 between braces. -/
def hexBraced : Reader Char := do
  let brace ← place
  advance
  let digits ← loop ([] : List Char) fun done => do
    match ← peek with
    | none => refuse brace (← place) incomplete
    | some '}' => return (done, false)
    | some c =>
      if !Text.isHexDigit c then refuseChar "invalid hexadecimal digit"
      advance
      return (done ++ [c], true)
  let last ← place
  advance
  if digits.isEmpty then refuse brace (← place) "hexadecimal literal empty"
  match hexChar? digits with
  | some c => return c
  | none => refuse (brace + 1) last "hexadecimal literal is not a Unicode scalar value"

/-- A character given by its number, behind the letter that says how. -/
def hexEscape (letter : Char) : Reader Char := do
  advance
  match ← peek with
  | none => refuseHere incomplete
  | some '{' => hexBraced
  | some _ => hexDigits (if letter = 'x' then 2 else if letter = 'u' then 4 else 8)

/-- A class of all scripts by its name, none of which is known. -/
def propertyClass (start : Nat) : Reader CharSet := do
  advance
  match ← peek with
  | none => refuseHere incomplete
  | some '{' =>
    let _ ← loop () fun _ => do
      advance
      match ← peek with
      | none => refuseHere incomplete
      | some c => return ((), c != '}')
    bump
  | some '\\' => refuseChar "invalid Unicode character class"
  | some _ => advance
  missing start (← place) (if (← get).flags.allScripts then "Unicode property not found"
    else "Unicode not allowed here")
  return .any

/-- The name of a special word boundary between braces. -/
def boundaryName? (start : Nat) : Reader (Option Look) := do
  let before ← get
  let isNameChar (c : Char) : Bool := c.isAlpha || c == '-'
  let brace ← place
  advance
  let first ← place
  match ← peek with
  | none => refuse start (← place) ("found either the beginning of a special word boundary or a " ++
      "bounded repetition on a \\b with an opening brace, but no closing brace")
  | some c =>
    if !isNameChar c then
      set before
      return none
    let name ← loop ([] : List Char) fun done => do
      match ← peek with
      | some c =>
        if isNameChar c then (do advance; return (done ++ [c], true)) else return (done, false)
      | none => return (done, false)
    if (← peek) != some '}' then
      refuse brace (← place)
        "special word boundary assertion is either unclosed or contains an invalid character"
    let last ← place
    bump
    match String.ofList name with
    | "start" => return some .wordStart
    | "end" => return some .wordEnd
    | "start-half" => return some .wordStartHalf
    | "end-half" => return some .wordEndHalf
    | _ => refuse first last ("unrecognized special word boundary assertion, valid choices are: " ++
        "start, end, start-half or end-half")

/-- A word boundary, which is not available for all scripts. -/
def boundary (l : Look) : Reader Escape := do
  modify fun c => { c with wordsOfAllScripts := c.wordsOfAllScripts || c.flags.allScripts }
  return .look l

/-- Whether a backslash before a character takes its meaning away. -/
def isEscapable (c : Char) : Bool :=
  c.toNat < 128 && !c.isAlphanum && c != '<' && c != '>'

/-- An escape. -/
def escape : Reader Escape := do
  let start ← place
  bump
  match ← peek with
  | none => refuse start (← place) incomplete
  | some c =>
    if c.isDigit then refuse start ((← place) + 1) "backreferences are not supported"
    if c = 'x' || c = 'u' || c = 'U' then
      let d ← hexEscape c
      if c = 'x' && 0x7f < d.toNat && d.toNat ≤ 0xff && !(← get).flags.allScripts then
        missingPart start (← place)
      return .char d
    if c = 'p' || c = 'P' then return .set (← propertyClass start)
    bump
    let last ← place
    if ['d', 's', 'w', 'D', 'S', 'W'].contains c then return .set (← letterClass start last c)
    if isEscapable c then return .char c
    match c with
    | 'a' => return .char (Char.ofNat 0x07)
    | 'f' => return .char (Char.ofNat 0x0c)
    | 't' => return .char '\t'
    | 'n' => return .char '\n'
    | 'r' => return .char '\r'
    | 'v' => return .char (Char.ofNat 0x0b)
    | 'A' => return .look .textStart
    | 'z' => return .look .textEnd
    | 'B' => boundary .noWordBoundary
    | '<' => boundary .wordStart
    | '>' => boundary .wordEnd
    | 'b' =>
      let special ← if (← peek) = some '{' then boundaryName? start else pure none
      boundary (special.getD .wordBoundary)
    | _ => refuse start last "unrecognized escape sequence"

/-! ### Classes in brackets -/

/-- A part of a class, with the place where it starts. -/
structure ClassItem where
  start : Nat
  last : Nat
  escape : Escape

/-- A character or an escape in a class. -/
def classItem : Reader ClassItem := do
  let start ← place
  match ← peek with
  | some '\\' =>
    let e ← escape
    return ⟨start, ← place, e⟩
  | some c =>
    bump
    return ⟨start, ← place, .char c⟩
  | none => refuseHere "unclosed character class"

/-- The set that a part of a class is. -/
def ClassItem.toSet (i : ClassItem) : Reader CharSet :=
  match i.escape with
  | .char c => return .single c
  | .set s => return s
  | .look _ => refuse i.start i.last "invalid escape sequence found in character class"

/-- The character that an end of a range is. -/
def ClassItem.toChar (i : ClassItem) : Reader Char :=
  match i.escape with
  | .char c => return c
  | _ => refuse i.start i.last "invalid range boundary, must be a literal"

/-- The character after the next one, blanks that do not count aside. -/
def peekSecond : Reader (Option Char) := do
  let c ← get
  let rest := c.rest.drop 1
  return (if c.flags.ignoreBlanks then withoutBlanks (rest.length + 1) rest else rest).head?

/-- What is said of a class without an end. -/
def unclosedClass {α : Type} (opening : Stretch) : Reader α :=
  refuse opening.first opening.last "unclosed character class"

/-- A character, an escape or a range. -/
def classRange (opening : Stretch) : Reader CharSet := do
  let low ← classItem
  bumpBlanks
  match ← peek with
  | none => unclosedClass opening
  | some c =>
    let second ← peekSecond
    if c != '-' || second == some ']' || second == some '-' then return ← low.toSet
    advance
    if (← peek).isNone then unclosedClass opening
    let high ← classItem
    let lowChar ← low.toChar
    let highChar ← high.toChar
    if highChar < lowChar then
      refuse low.start high.last "invalid character class range, the start must be <= the end"
    return .between lowChar highChar

/-- A class by its name between colons and brackets, if one is here. -/
def namedClass : Reader (Option CharSet) := do
  let before ← get
  if !(← bumpIf "[:") then return none
  let negated ← bumpIf "^"
  let name := (← get).rest.takeWhile (· != ':')
  modify fun c => { c with rest := c.rest.drop name.length, place := c.place + name.length }
  match namedClass? (String.ofList name) with
  | some named =>
    if ← bumpIf ":]" then
      return some (if negated then .complement named else named)
    else
      set before
      return none
  | none =>
    set before
    return none

/-- How two sets of a class are joined. -/
inductive ClassOperator where
  | intersection
  | difference
  | symmetricDifference
deriving DecidableEq

/-- The set that two sets joined are. -/
def ClassOperator.apply (left right : CharSet) : ClassOperator → CharSet
  | intersection => .intersection left right
  | difference => .difference left right
  | symmetricDifference => .union [.difference left right, .difference right left]

/-- What has been read of a class: the members since the last operator, and what stands before it.
-/
structure ClassState where
  members : List CharSet
  left : Option (CharSet × ClassOperator) := none

/-- The set that has been read. -/
def ClassState.set (s : ClassState) : CharSet :=
  let right := CharSet.union s.members.reverse
  match s.left with
  | some (left, o) => o.apply left right
  | none => right

/-- Starts anew after an operator. -/
def ClassState.join (s : ClassState) (o : ClassOperator) : ClassState :=
  ⟨[], some (s.set, o)⟩

/-- The front of a class: its bracket, whether it is for all other characters, and the dashes or the
bracket that stand for themselves at its start. -/
def classFront : Reader (Stretch × Bool × List CharSet) := do
  let start ← place
  advance
  if (← peek).isNone then refuse start (← place) "unclosed character class"
  let negated := (← peek) == some '^'
  if negated then
    advance
    if (← peek).isNone then refuse start (← place) "unclosed character class"
  let dashes ← loop ([] : List CharSet) fun done => do
    if (← peek) == some '-' then
      advance
      if (← peek).isNone then refuse start start "unclosed character class"
      return (CharSet.single '-' :: done, true)
    else return (done, false)
  let front ← if dashes.isEmpty && (← peek) == some ']' then do
      advance
      if (← peek).isNone then refuse start (← place) "unclosed character class"
      pure [CharSet.single ']']
    else pure dashes
  return (⟨start, ← place⟩, negated, front)

/-- A class in brackets, at most `depth` classes deep. -/
def bracketed : (depth : Nat) → Reader CharSet
  | 0 => refuseHere "unclosed character class"
  | depth + 1 => do
    let (opening, negated, front) ← classFront
    let state ← loop (⟨front, none⟩ : ClassState) fun s => do
      bumpBlanks
      match ← peek with
      | none => unclosedClass opening
      | some ']' => return (s, false)
      | some '[' =>
        match ← namedClass with
        | some set => return ({ s with members := set :: s.members }, true)
        | none => return ({ s with members := (← bracketed depth) :: s.members }, true)
      | some _ =>
        if ← bumpIf "&&" then return (s.join .intersection, true)
        else if ← bumpIf "--" then return (s.join .difference, true)
        else if ← bumpIf "~~" then return (s.join .symmetricDifference, true)
        else return ({ s with members := (← classRange opening) :: s.members }, true)
    bump
    let last ← place
    let folds ← foldsCase opening.first last
    let set := if folds then state.set.ignoringCase else state.set
    if negated && !(← get).flags.allScripts then missingPart opening.first last
    return if negated then .complement set else set

/-! ### Groups and flags -/

/-- The flag that a letter stands for, as a change of flags. -/
def flagChange? (on : Bool) : Char → Option (Flags → Flags)
  | 'i' => some (fun f => { f with ignoreCase := on })
  | 'm' => some (fun f => { f with multiLine := on })
  | 's' => some (fun f => { f with dotAll := on })
  | 'U' => some id
  | 'u' => some (fun f => { f with allScripts := on })
  | 'R' => some (fun f => { f with withReturn := on })
  | 'x' => some (fun f => { f with ignoreBlanks := on })
  | _ => none

/-- What has been read of a list of flags: each with its place, and the changes they make. -/
structure FlagState where
  seen : List (Char × Nat) := []
  change : Flags → Flags := id

/-- Flags up to `:` or `)`. -/
def flagList : Reader FlagState := do
  let s ← loop ({} : FlagState) fun s => do
    match ← peek with
    | none => refuseHere "expected flag but got end of regex"
    | some c =>
      if c = ':' || c = ')' then return (s, false)
      let here ← place
      let isNegated := s.seen.any (fun f => f.1 == '-')
      let change ← if c = '-' then pure id else
        match flagChange? (!isNegated) c with
        | some change => pure change
        | none => refuseChar "unrecognized flag"
      match s.seen.find? (fun f => f.1 == c) with
      | some (_, earlier) =>
        throw (.malformed [⟨here, here + 1⟩, ⟨earlier, earlier + 1⟩]
          (if c = '-' then "flag negation operator repeated" else "duplicate flag"))
      | none => pure ()
      bump
      return ({ seen := s.seen ++ [(c, here)], change := fun f => change (s.change f) }, true)
  match s.seen.getLast? with
  | some ('-', here) => refuse here (here + 1) "dangling flag negation operator"
  | _ => return s

/-- Whether a character may stand in the name of a group. -/
def isNameChar (isFirst : Bool) (c : Char) : Bool :=
  c = '_' || c.isAlpha || 128 ≤ c.toNat ||
    !isFirst && (c.isDigit || c = '.' || c = '[' || c = ']')

/-- The name of a group, up to `>`. -/
def groupName : Reader Unit := do
  let start ← place
  let name ← loop ([] : List Char) fun done => do
    match ← peek with
    | none => refuseHere "unclosed capture group name"
    | some '>' => return (done, false)
    | some c =>
      if !isNameChar done.isEmpty c then refuseChar "invalid capture group character"
      bump
      return (done ++ [c], true)
  let spot : Stretch := ⟨start, ← place⟩
  bump
  if name.isEmpty then refuse start start "empty capture group name"
  let text := String.ofList name
  match (← get).names.find? (fun n => n.1 == text) with
  | some (_, earlier) => throw (.malformed [spot, earlier] "duplicate capture group name")
  | none => modify fun c => { c with names := (text, spot) :: c.names }

/-- What an opening parenthesis starts. -/
inductive Opening where
  /-- A group in which flags are changed. -/
  | group (change : Flags → Flags)
  /-- Flags for the rest of the group around them. -/
  | flags (change : Flags → Flags)

/-- What follows an opening parenthesis up to the content of a group. -/
def groupFront : Reader Opening := do
  let start ← place
  bump
  bumpBlanks
  if (← bumpIf "?=") || (← bumpIf "?!") || (← bumpIf "?<=") || (← bumpIf "?<!") then
    refuse start (← place) "look-around, including look-ahead and look-behind, is not supported"
  let inner ← place
  if (← bumpIf "?P<") || (← bumpIf "?<") then
    groupName
    return .group id
  else if ← bumpIf "?" then
    if (← peek).isNone then refuse start (start + 1) "unclosed group"
    let flags ← flagList
    let closes := (← peek) == some ')'
    bump
    if !closes then return .group flags.change
    if flags.seen.isEmpty then refuse inner inner "repetition operator missing expression"
    return .flags flags.change
  else return .group id

/-! ### Repetition -/

/-- A decimal number. An empty one is refused by `empty`. -/
def decimal (empty : String) : Reader (Except RegexFault Nat) := do
  let skipBlanks : Reader Unit := loop () fun _ => do
    match ← peek with
    | some c => if Text.isBlank c then (do advance; return ((), true)) else return ((), false)
    | none => return ((), false)
  skipBlanks
  let start ← place
  let digits ← loop ([] : List Char) fun done => do
    match ← peek with
    | some c => if c.isDigit then (do advance; return (done ++ [c], true)) else return (done, false)
    | none => return (done, false)
  let spot : Stretch := ⟨start, ← place⟩
  skipBlanks
  if digits.isEmpty then return .error (.malformed [spot] empty)
  let n := digits.foldl (fun v d => 10 * v + (d.toNat - 48)) 0
  if n < 0x100000000 then return .ok n
  else return .error (.malformed [spot] "decimal literal invalid")

/-- The counts of a repetition between braces. -/
def counts : Reader (Nat × Option Nat) := do
  let empty := "repetition quantifier expects a valid decimal"
  let start ← place
  let unclosed {α : Type} : Reader α := do
    refuse start (← place) "unclosed counted repetition"
  advance
  if (← peek).isNone then unclosed
  let low ← decimal empty
  if (← peek).isNone then unclosed
  let range ← if (← peek) == some ',' then do
      advance
      if (← peek).isNone then unclosed
      if (← peek) == some '}' then pure (← MonadExcept.ofExcept low, none)
      else
        let low ← MonadExcept.ofExcept low
        let high ← MonadExcept.ofExcept (← decimal empty)
        pure (low, some high)
    else do
      let n ← MonadExcept.ofExcept low
      pure (n, some n)
  if (← peek) != some '}' then unclosed
  advance
  let _ ← bumpIf "?"
  if range.2.any (· < range.1) then
    refuse start (← place) "invalid repetition count range, the start must be <= the end"
  return range

/-- What a repetition repeats: flags cannot be. -/
def repeatable (items : List (Option Regex)) : Reader (Regex × List (Option Regex)) :=
  match items with
  | some r :: rest => return (r, rest)
  | _ => refuseHere "repetition operator missing expression"

/-- A repetition by a sign, which a `?` may follow. -/
def signed (low : Nat) (high : Option Nat) (items : List (Option Regex)) :
    Reader (List (Option Regex)) := do
  let (r, rest) ← repeatable items
  bump
  let _ ← bumpIf "?"
  return some (.repeated low high r) :: rest

/-! ### Expressions -/

/-- A dot. -/
def dot : Reader Regex := do
  let here ← place
  bump
  let flags := (← get).flags
  if !flags.allScripts then missingPart here (here + 1)
  return .chars (if flags.dotAll then .any
    else .complement (.ofText (if flags.withReturn then "\r\n" else "\n")))

/-- An anchor at an end of the text, or of a line if lines count. -/
def anchor (atStart : Bool) : Reader Regex := do
  bump
  let flags := (← get).flags
  return .look
    (if !flags.multiLine then if atStart then .textStart else .textEnd
    else if flags.withReturn then if atStart then .lineStartWithReturn else .lineEndWithReturn
    else if atStart then .lineStart else .lineEnd)

/-- A character, an escape, a dot or an anchor. -/
def primitive (c : Char) : Reader Regex := do
  let start ← place
  match c with
  | '.' => dot
  | '^' => anchor true
  | '$' => anchor false
  | '\\' =>
    match ← escape with
    | .char d => return .chars (← literal start (← place) d)
    | .set s => return .chars s
    | .look l => return .look l
  | c =>
    bump
    return .chars (← literal start (← place) c)

/-- The expression that items in reverse order are; flags describe nothing. -/
def ofItems (items : List (Option Regex)) : Regex :=
  sequence (items.reverse.filterMap id)

/-- What is left of a group from some finished alternatives and the items of the current one on. The
group starts at `opening`; without one the expression goes on to its end. -/
def alternatives (opening : Option Nat) :
    Nat → (done : List Regex) → (items : List (Option Regex)) → Reader Regex
  | 0, _, _ => refuseHere "unclosed group"
  | fuel + 1, done, items => do
    bumpBlanks
    let finish : Regex := choice ((ofItems items :: done).reverse)
    match ← peek with
    | none =>
      match opening with
      | some start => refuse start (start + 1) "unclosed group"
      | none => return finish
    | some '(' =>
      let start ← place
      match ← groupFront with
      | .flags change =>
        modify fun c => { c with flags := change c.flags }
        alternatives opening fuel done (none :: items)
      | .group change =>
        let outer := (← get).flags
        modify fun c => { c with flags := change c.flags }
        let inner ← alternatives (some start) fuel [] []
        modify fun c => { c with flags := outer }
        alternatives opening fuel done (some inner :: items)
    | some ')' =>
      match opening with
      | none => refuseChar "unopened group"
      | some _ =>
        bump
        return finish
    | some '|' =>
      bump
      alternatives opening fuel (ofItems items :: done) []
    | some '[' =>
      let set ← bracketed ((← get).rest.length + 1)
      alternatives opening fuel done (some (.chars set) :: items)
    | some '?' => alternatives opening fuel done (← signed 0 (some 1) items)
    | some '*' => alternatives opening fuel done (← signed 0 none items)
    | some '+' => alternatives opening fuel done (← signed 1 none items)
    | some '{' =>
      let (r, rest) ← repeatable items
      let (low, high) ← counts
      alternatives opening fuel done (some (.repeated low high r) :: rest)
    | some c => alternatives opening fuel done (some (← primitive c) :: items)

/-- The regular expression that a text is. -/
def ofText? (pattern : String) : Except RegexFault Regex := do
  let cs := pattern.toList
  let (r, c) ← (alternatives none (cs.length + 1) [] []).run { rest := cs }
  match c.lack with
  | some fault => throw fault
  | none => if c.wordsOfAllScripts then throw .unbuildable else return r

end Regex

end FieldGraft

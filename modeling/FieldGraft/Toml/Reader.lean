import FieldGraft.Toml
import FieldGraft.Toml.Scalar

/-!
# Reading TOML

`Toml.ofText?` reads a document: statements on lines of their own, each of which is a key with a
value or a header. Values are read from the front of the text; a reader gives back what follows.
-/

namespace FieldGraft.Toml

/-- Reads something from the front of a text. -/
abbrev Reader (α : Type) := List Char → Option (α × List Char)

/-! ### Between values -/

/-- The blanks within a line. -/
def isSpace (c : Char) : Bool :=
  c == ' ' || c == '\t'

/-- A character that may stand in a comment. -/
def isVisible (c : Char) : Bool :=
  c == '\t' || (0x20 ≤ c.toNat && c.toNat != 0x7f)

/-- Leaves out blanks. -/
def skipSpaces (cs : List Char) : List Char :=
  cs.dropWhile isSpace

/-- Leaves out a line end. -/
def skipNewline? : List Char → Option (List Char)
  | '\n' :: rest => some rest
  | '\r' :: '\n' :: rest => some rest
  | _ => none

/-- What follows the rest of a line that holds at most a comment. -/
def endLine? (cs : List Char) : Option (List Char) :=
  let rest := match skipSpaces cs with
    | '#' :: comment => comment.dropWhile isVisible
    | other => other
  if rest.isEmpty then some [] else skipNewline? rest

/-- Leaves out blanks, line ends and comments; the flag tells whether a comment is open. -/
def skipGap? : Bool → List Char → Option (List Char)
  | true, [] => none
  | false, [] => some []
  | true, c :: cs =>
    if c == '\n' then skipGap? false cs
    else if c == '\r' then
      match cs with
      | '\n' :: rest => skipGap? false rest
      | _ => none
    else if isVisible c then skipGap? true cs
    else none
  | false, c :: cs =>
    if isSpace c || c == '\n' then skipGap? false cs
    else if c == '#' then skipGap? true cs
    else if c == '\r' then
      match cs with
      | '\n' :: rest => skipGap? false rest
      | _ => some (c :: cs)
    else some (c :: cs)

/-! ### Strings -/

/-- The character with the given hexadecimal number. -/
def codePoint? (ds : List Char) : Option Char :=
  let n := ofDigits 16 ds
  if ds.all (isDigitIn 16) && n.isValidChar then some (Char.ofNat n) else none

/-- What an escape stands for; the text starts after the backslash. -/
def escape? : Reader Char
  | 'b' :: rest => some ('\x08', rest)
  | 't' :: rest => some ('\t', rest)
  | 'n' :: rest => some ('\n', rest)
  | 'f' :: rest => some ('\x0c', rest)
  | 'r' :: rest => some ('\r', rest)
  | '"' :: rest => some ('"', rest)
  | '\\' :: rest => some ('\\', rest)
  | 'u' :: rest => (codePoint? (rest.take 4)).map (fun c => (c, rest.drop 4))
  | 'U' :: rest => (codePoint? (rest.take 8)).map (fun c => (c, rest.drop 8))
  | _ => none

/-- The rest of a string on one line. `fuel` is at least the length of the text. -/
def basic? : (fuel : Nat) → Reader (List Char)
  | 0, _ => none
  | _ + 1, [] => none
  | fuel + 1, c :: cs =>
    if c == '"' then some ([], cs)
    else if c == '\\' then
      match escape? cs with
      | some (e, rest) => (basic? fuel rest).map (fun r => (e :: r.1, r.2))
      | none => none
    else if isVisible c then (basic? fuel cs).map (fun r => (c :: r.1, r.2))
    else none

/-- The rest of a literal string on one line. -/
def literal? : Reader (List Char)
  | [] => none
  | c :: cs =>
    if c == '\'' then some ([], cs)
    else if isVisible c then (literal? cs).map (fun r => (c :: r.1, r.2))
    else none

/-- Leaves out blanks and line ends. -/
def skipLines : List Char → List Char
  | [] => []
  | c :: cs =>
    if isSpace c || c == '\n' then skipLines cs
    else if c == '\r' then
      match cs with
      | '\n' :: rest => skipLines rest
      | _ => c :: cs
    else c :: cs

/-- The rest of a string of several lines between quotes of the given kind. Up to two quotes may
stand before the closing three. `fuel` is at least the length of the text. -/
def multiline? (quote : Char) : (fuel : Nat) → Reader (List Char)
  | 0, _ => none
  | fuel + 1, cs =>
    let run := (cs.takeWhile (fun c => c == quote)).take 5
    if 3 ≤ run.length then some (run.drop 3, cs.drop run.length)
    else match cs with
      | [] => none
      | c :: rest =>
        match skipNewline? cs with
        | some rest => (multiline? quote fuel rest).map (fun r => ('\n' :: r.1, r.2))
        | none =>
          if c == '\\' && quote == '"' then
            match skipNewline? (skipSpaces rest) with
            | some lines => multiline? quote fuel (skipLines lines)
            | none =>
              match escape? rest with
              | some (e, rest) => (multiline? quote fuel rest).map (fun r => (e :: r.1, r.2))
              | none => none
          else if isVisible c then (multiline? quote fuel rest).map (fun r => (c :: r.1, r.2))
          else none

/-- A line end right after the opening quotes does not belong to the string. -/
def dropFirstNewline (cs : List Char) : List Char :=
  (skipNewline? cs).getD cs

/-- A string of any kind. -/
def string? (cs : List Char) : Option (String × List Char) :=
  let read := match cs with
    | '"' :: '"' :: '"' :: rest => multiline? '"' (rest.length + 1) (dropFirstNewline rest)
    | '\'' :: '\'' :: '\'' :: rest => multiline? '\'' (rest.length + 1) (dropFirstNewline rest)
    | '"' :: rest => basic? (rest.length + 1) rest
    | '\'' :: rest => literal? rest
    | _ => none
  read.map (fun r => (String.ofList r.1, r.2))

/-! ### Keys -/

/-- A character of a key without quotes. -/
def isBare (c : Char) : Bool :=
  isDigit c || ('a' ≤ c && c ≤ 'z') || ('A' ≤ c && c ≤ 'Z') || c == '_' || c == '-'

/-- One part of a key. -/
def simpleKey? (cs : List Char) : Option (String × List Char) :=
  match cs with
  | '"' :: rest => (basic? (rest.length + 1) rest).map (fun r => (String.ofList r.1, r.2))
  | '\'' :: rest => (literal? rest).map (fun r => (String.ofList r.1, r.2))
  | _ =>
    let bare := cs.takeWhile isBare
    if bare.isEmpty then none else some (String.ofList bare, cs.dropWhile isBare)

/-- A key of at most `parts` parts, with blanks around each. -/
def keyUpTo? : (parts : Nat) → Reader (List String)
  | 0, _ => none
  | parts + 1, cs =>
    match simpleKey? (skipSpaces cs) with
    | none => none
    | some (k, rest) =>
      match skipSpaces rest with
      | '.' :: rest => (keyUpTo? parts rest).map (fun r => (k :: r.1, r.2))
      | rest => some ([k], rest)

/-- How deep values may be nested, and how many parts a key may have. -/
def depthLimit : Nat := 79

/-- A key. -/
def key? : Reader (List String) :=
  keyUpTo? depthLimit

/-! ### Values -/

/-- A character of a number, date or truth value. -/
def isWord (c : Char) : Bool :=
  isBare c || c == '+' || c == '.' || c == ':'

/-- A value without brackets and quotes. A date may be followed by a blank and a time. -/
def scalar? (cs : List Char) : Option (Toml × List Char) :=
  let word := cs.takeWhile isWord
  let rest := cs.dropWhile isWord
  if word = "true".toList then some (.boolean true, rest)
  else if word = "false".toList then some (.boolean false, rest)
  else if isDate word then
    match rest with
    | ' ' :: more =>
      if isFullTime (more.takeWhile isWord) then some (.moment, more.dropWhile isWord)
      else some (.moment, rest)
    | _ => some (.moment, rest)
  else if isMoment word then some (.moment, rest)
  else if isFloat word || isInteger word then some (.number, rest)
  else none

/-- The rest of an array after its opening bracket. `fuel` is at least the length of the text. -/
def elements? (value : Reader Toml) : (fuel : Nat) → Reader (List Toml)
  | 0, _ => none
  | fuel + 1, cs =>
    match skipGap? false cs with
    | none => none
    | some (']' :: rest) => some ([], rest)
    | some cs =>
      match value cs with
      | none => none
      | some (v, rest) =>
        match skipGap? false rest with
        | some (']' :: rest) => some ([v], rest)
        | some (',' :: rest) => (elements? value fuel rest).map (fun r => (v :: r.1, r.2))
        | _ => none

/-- A key with its value. -/
def pair? (value : Reader Toml) (cs : List Char) : Option ((List String × Toml) × List Char) :=
  match key? cs with
  | some (k, '=' :: rest) => (value (skipSpaces rest)).map (fun r => ((k, r.1), r.2))
  | _ => none

/-- Adds a pair to the table under construction. -/
def addPair (pair : List String × Toml) (form : TableForm) (entries : Entries) : Option Toml :=
  match pair.1.getLast? with
  | some key => insert pair.1.dropLast key pair.2 form entries
  | none => none

/-- The rest of an inline table whose next part is a pair. `fuel` is at least the length of the
text. -/
def pairs? (value : Reader Toml) : (fuel : Nat) → (made : Toml) → Reader Toml
  | 0, _, _ => none
  | fuel + 1, made, cs =>
    match pair? value cs, made with
    | some (p, rest), .table form entries =>
      match addPair p form entries with
      | none => none
      | some made =>
        match skipSpaces rest with
        | '\x7d' :: rest => some (made, rest)
        | ',' :: rest => pairs? value fuel made rest
        | _ => none
    | _, _ => none

/-- A value in which others are nested at most `depth` deep. -/
def valueUpTo? : (depth : Nat) → Reader Toml
  | 0, _ => none
  | depth + 1, cs =>
    match cs with
    | '[' :: rest =>
      if depth = 0 then none
      else (elements? (valueUpTo? depth) (rest.length + 1) rest).map (fun r => (.array r.1, r.2))
    | '\x7b' :: rest =>
      if depth = 0 then none
      else match skipSpaces rest with
        | '\x7d' :: rest => some (.table .inline [], rest)
        | rest => pairs? (valueUpTo? depth) (rest.length + 1) (.table .inline []) rest
    | '"' :: _ => (string? cs).map (fun r => (.string r.1, r.2))
    | '\'' :: _ => (string? cs).map (fun r => (.string r.1, r.2))
    | _ => scalar? cs

/-- A value. -/
def value? : Reader Toml :=
  valueUpTo? (depthLimit + 1)

/-! ### Documents -/

/-- The document so far, and the header that the next pairs belong to. -/
structure Draft where
  document : Toml := empty
  header : List String := []
deriving Repr, Inhabited

/-- Starts a section. -/
def Draft.startSection (d : Draft) (header : List String)
    (declare : String → TableForm → Entries → Option Toml) : Option Draft :=
  match header.getLast? with
  | none => none
  | some key =>
    match inSection header.dropLast (declare key) d.document with
    | some document => some { document, header }
    | none => none

/-- Adds a pair to the current section. -/
def Draft.add (d : Draft) (pair : List String × Toml) : Option Draft :=
  match inSection d.header (addPair pair) d.document with
  | some document => some { d with document }
  | none => none

/-- One statement; the text starts with it. -/
def statement? (d : Draft) (cs : List Char) : Option (Draft × List Char) :=
  match cs with
  | '[' :: '[' :: rest =>
    match key? rest with
    | some (header, ']' :: ']' :: rest) =>
      match d.startSection header declareNext, endLine? rest with
      | some d, some rest => some (d, rest)
      | _, _ => none
    | _ => none
  | '[' :: rest =>
    match key? rest with
    | some (header, ']' :: rest) =>
      match d.startSection header declare, endLine? rest with
      | some d, some rest => some (d, rest)
      | _, _ => none
    | _ => none
  | _ =>
    match pair? value? cs with
    | some (pair, rest) =>
      match d.add pair, endLine? rest with
      | some d, some rest => some (d, rest)
      | _, _ => none
    | none => none

/-- The statements of a text. `fuel` is more than its length. -/
def statements? : (fuel : Nat) → Draft → List Char → Option Draft
  | 0, _, _ => none
  | fuel + 1, d, cs =>
    match skipSpaces cs with
    | [] => some d
    | '#' :: rest =>
      match endLine? ('#' :: rest) with
      | some rest => statements? fuel d rest
      | none => none
    | cs =>
      match skipNewline? cs with
      | some rest => statements? fuel d rest
      | none =>
        match statement? d cs with
        | some (d, rest) => statements? fuel d rest
        | none => none

/-- Leaves out a byte order mark. -/
def dropMark (cs : List Char) : List Char :=
  match cs with
  | '\ufeff' :: rest => rest
  | _ => cs

/-- Reads a document. -/
def ofText? (s : String) : Option Toml :=
  let cs := dropMark s.toList
  (statements? (cs.length + 1) {} cs).map Draft.document

end FieldGraft.Toml

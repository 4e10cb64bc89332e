import FieldGraft.CommandLine.Messages
import FieldGraft.Log
import FieldGraft.Text.Blank
import FieldGraft.Text.Regex.Reader
import FieldGraft.Text.Search

/-!
# Log lines

Log records go to the error stream if a filter lets them through. A filter is a list of directives
between commas: a level for all records, or the name of a part of the program with a level for the
records of that part. The directive with the longest matching name decides, and without directives
errors pass. A slash ends the directives; a regular expression behind it must occur in a record.
-/

namespace FieldGraft

/-- Sets the level for the records of a part, or of all parts. -/
structure Directive where
  name : Option String
  /-- The highest rank that passes; no rank is zero. -/
  rank : Nat
deriving DecidableEq, Repr, Inhabited

/-- A log filter, and what could not be understood of it. -/
structure LogFilter where
  directives : List Directive
  /-- What must occur in the text of a record. -/
  pattern : Option Regex := none
  complaints : List String := []
deriving Repr, Inhabited

namespace LogFilter

/-- A letter in upper case. -/
def upper (c : Char) : Char :=
  if 'a' ≤ c && c ≤ 'z' then Char.ofNat (c.toNat - 32) else c

/-- The rank of a level, whose name may be written in any case. -/
def rank? (name : List Char) : Option Nat :=
  match String.ofList (name.map upper) with
  | "OFF" => some 0
  | "ERROR" => some 1
  | "WARN" => some 2
  | "INFO" => some 3
  | "DEBUG" => some 4
  | "TRACE" => some 5
  | _ => none

/-- The rank that every record passes. -/
def maxRank : Nat := 5

/-- Leaves out the blanks around a text. -/
def trim (cs : List Char) : List Char :=
  ((cs.dropWhile Text.isBlank).reverse.dropWhile Text.isBlank).reverse

/-- Reads one directive; an error is the text that was not understood. -/
def directive? (cs : List Char) : Except String Directive :=
  match Text.pieces (fun c => c == '=') cs with
  | [name] =>
    match rank? name with
    | some r => .ok ⟨none, r⟩
    | none => .ok ⟨some (String.ofList name), maxRank⟩
  | [name, level] =>
    let level := trim level
    if level.isEmpty then .ok ⟨some (String.ofList name), maxRank⟩
    else match rank? level with
      | some r => .ok ⟨some (String.ofList name), r⟩
      | none => .error (String.ofList level)
  | _ => .error (String.ofList cs)

/-- A later directive for a part takes the place of an earlier one. -/
def add (d : Directive) (ds : List Directive) : List Directive :=
  if ds.any (fun e => e.name == d.name) then ds.map (fun e => if e.name == d.name then d else e)
  else ds ++ [d]

/-- Takes one part of a filter. -/
def step (f : LogFilter) (cs : List Char) : LogFilter :=
  if cs.isEmpty then f
  else match directive? cs with
    | .ok d => { f with directives := add d f.directives }
    | .error text => { f with complaints := f.complaints ++ [s!"invalid logging spec '{text}'"] }

/-- Takes the directives of a filter. -/
def ofDirectives (cs : List Char) : LogFilter :=
  ((Text.pieces (fun c => c == ',') cs).map trim).foldl step { directives := [] }

/-- Takes the regular expression of a filter. -/
def requiring (text : String) (f : LogFilter) : LogFilter :=
  match Regex.ofText? text with
  | .ok r => { f with pattern := some r }
  | .error e =>
    { f with complaints := f.complaints ++ [s!"invalid regex filter - {e.message text}"] }

/-- Reads a filter: directives, and a regular expression behind a slash. -/
def ofText (s : String) : LogFilter :=
  match Text.pieces (fun c => c == '/') s.toList with
  | [front] => ofDirectives front
  | [front, text] => (ofDirectives front).requiring (String.ofList text)
  | [] => { directives := [] }
  | _ => { directives := [], complaints := [s!"invalid logging spec '{s}' (too many '/'s)"] }

/-- The filter of an environment. -/
def ofEnvironment (e : Environment) : LogFilter :=
  match e.log with
  | some s => ofText s
  | none => { directives := [] }

/-- How long the name of a directive is. -/
def specificity (d : Directive) : Nat :=
  match d.name with
  | some s => s.utf8ByteSize
  | none => 0

/-- Whether a directive is about a part. -/
def covers (d : Directive) (part : String) : Bool :=
  match d.name with
  | some s => (Text.dropLead? s.toList part.toList).isSome
  | none => true

/-- Whether the directives let a record through. -/
def admits (f : LogFilter) (r : LogRecord) : Bool :=
  let ds := if f.directives.isEmpty then [⟨none, 1⟩] else f.directives
  let ordered := ds.mergeSort (fun a b => specificity a ≤ specificity b)
  match ordered.reverse.find? (fun d => covers d r.topic.name) with
  | some d => r.level.rank ≤ d.rank
  | none => false

/-- Whether a record passes. -/
def passes (f : LogFilter) (r : LogRecord) : Bool :=
  f.admits r && f.pattern.all (fun p => p.occursIn r.text)

/-- The rendition of a level. -/
def levelStart : LogLevel → String
  | .error => "\x1b[1m\x1b[31m"
  | .warn => "\x1b[33m"
  | .info => "\x1b[32m"
  | .debug => "\x1b[34m"

/-- The name of a level, filled up to five characters. -/
def levelName (l : LogLevel) : String :=
  l.name ++ String.ofList (List.replicate (5 - l.name.length) ' ')

/-- Indents the lines of a text after the first. -/
def indented (s : String) : String :=
  String.ofList (s.toList.flatMap (fun c => if c = '\n' then "\n    ".toList else [c]))

/-- A record as a line. -/
def lineText (colored : Bool) (r : LogRecord) : String :=
  if colored then
    Paint.muted.wrap "[" ++ levelStart r.level ++ levelName r.level ++ "\x1b[0m " ++ r.topic.name ++
      Paint.muted.wrap "]" ++ " " ++ indented r.text
  else "[" ++ levelName r.level ++ " " ++ r.topic.name ++ "] " ++ indented r.text

/-- The lines of the records that pass. -/
def lines (f : LogFilter) (colored : Bool) (rs : List LogRecord) : List Line :=
  (rs.filter f.passes).map (fun r => .error (lineText colored r))

/-- The lines about what was not understood. -/
def complaintLines (f : LogFilter) : List Line :=
  f.complaints.map (fun c => .error s!"warning: {c}, ignoring it")

end LogFilter

end FieldGraft

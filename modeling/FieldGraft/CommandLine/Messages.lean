import FieldGraft.CommandLine.Arguments

/-!
# Messages

The lines that the program writes, and the stream that each goes to. Messages have an icon and,
where that is asked for, a colour. A quiet run writes errors only; a run whose output is read by
programs writes no messages among it.
-/

namespace FieldGraft

/-- A line on one of the two streams. -/
inductive Line where
  | output (text : String)
  | error (text : String)
deriving DecidableEq, Repr, Inhabited

namespace Line

/-- The lines of the output stream. -/
def outputs (ls : List Line) : List String :=
  ls.filterMap fun l =>
    match l with
    | output s => some s
    | error _ => none

/-- The lines of the error stream. -/
def errors (ls : List Line) : List String :=
  ls.filterMap fun l =>
    match l with
    | error s => some s
    | output _ => none

end Line

/-- What the environment says about colours and logging. -/
structure Environment where
  /-- The log filter. -/
  log : Option String := none
  /-- Set if colours are wanted whatever the stream. -/
  forceColor : Option String := none
  /-- Set if colours are not wanted. -/
  noColor : Option String := none
deriving DecidableEq, Repr, Inhabited

namespace Environment

/-- Whether messages are coloured: `0` takes the wish for colours back. -/
def messagesColored (e : Environment) : Bool :=
  match e.forceColor with
  | some v => v != "0"
  | none => false

/-- Whether help and log lines are coloured: any value but an empty one is a wish, and a wish for no
colours counts more. -/
def linesColored (e : Environment) : Bool :=
  e.forceColor.getD "" != "" && e.noColor.getD "" == ""

end Environment

/-- A graphic rendition of text on a terminal. -/
structure Paint where
  code : String
deriving DecidableEq, Repr, Inhabited

namespace Paint

def success : Paint := ⟨"32"⟩
def note : Paint := ⟨"36"⟩
def warning : Paint := ⟨"33"⟩
def error : Paint := ⟨"31"⟩
def heading : Paint := ⟨"1;94"⟩
def muted : Paint := ⟨"90"⟩
def key : Paint := ⟨"1;96"⟩
def value : Paint := ⟨"37"⟩

/-- Switches a rendition on, writes the text and switches it off. -/
def wrap (p : Paint) (s : String) : String :=
  "\x1b[" ++ p.code ++ "m" ++ s ++ "\x1b[0m"

end Paint

namespace Icon

def success : String := "✓"
def note : String := "ℹ"
def warning : String := "⚠"
def error : String := "✗"
def arrow : String := "→"
def field : String := "+"
def file : String := "📄"

end Icon

/-- How a run writes its messages. -/
structure Voice where
  format : OutputFormat := .table
  quiet : Bool := false
  verbose : Bool := false
  plain : Bool := false
  /-- Colours are wanted unless the run is plain. -/
  colored : Bool := false
deriving DecidableEq, Repr, Inhabited

namespace Voice

/-- The voice that arguments and an environment ask for. -/
def of (a : Arguments) (e : Environment) : Voice where
  format := a.format
  quiet := a.quiet
  verbose := a.verbose
  plain := a.plain
  colored := e.messagesColored

/-- Colours a text if colours are wanted. -/
def paint (v : Voice) (p : Paint) (s : String) : String :=
  if v.colored && !v.plain then p.wrap s else s

/-- Whether messages are written to the output stream. -/
def speaks (v : Voice) : Bool :=
  !v.quiet && v.format != .json

/-- An icon and a text in one colour. -/
def marked (v : Voice) (p : Paint) (icon text : String) : String :=
  v.paint p icon ++ " " ++ v.paint p text

/-- A line on the output stream, if messages are written there. -/
def say (v : Voice) (s : String) : List Line :=
  if v.speaks then [.output s] else []

/-- Good news. -/
def success (v : Voice) (s : String) : List Line :=
  v.say (v.marked .success Icon.success s)

/-- A warning. -/
def warning (v : Voice) (s : String) : List Line :=
  v.say (v.marked .warning Icon.warning s)

/-- A hint. -/
def info (v : Voice) (s : String) : List Line :=
  v.say (v.marked .note Icon.note s)

/-- An error, which no voice leaves out. -/
def error (v : Voice) (s : String) : List Line :=
  [.error (v.marked .error Icon.error s)]

/-- What only a verbose run tells. -/
def detail (v : Voice) (s : String) : List Line :=
  if v.verbose && !v.quiet then [.error (v.marked .muted Icon.arrow s)] else []

/-- A heading after an empty line; a plain one is underlined. -/
def heading (v : Voice) (s : String) : List Line :=
  v.say ("\n" ++ (if v.plain then s ++ "\n" ++ String.ofList (List.replicate s.utf8ByteSize '=')
    else v.paint .heading s))

/-- A name and what it stands for. -/
def pair (v : Voice) (name value : String) : List Line :=
  v.say (v.paint .key name ++ ": " ++ v.paint .value value)

/-- An entry of a list. -/
def entry (v : Voice) (icon text : String) : List Line :=
  v.say ("  " ++ v.paint .muted icon ++ " " ++ text)

end Voice

end FieldGraft

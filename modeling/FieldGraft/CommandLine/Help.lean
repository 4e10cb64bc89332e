import FieldGraft.CommandLine.Arguments

/-!
# Help

The texts that the program shows about itself. The full form gives each option a paragraph and ends
with examples; the short form gives it a line. Titles, literal words and placeholders have a colour
each, which takes no room on the line.
-/

namespace FieldGraft.Help

/-! ### Toned text -/

/-- What a piece of a help text is. -/
inductive Tone where
  | plain
  | title
  /-- To be typed as shown. -/
  | literal
  /-- To be replaced by a value. -/
  | placeholder
deriving DecidableEq, Repr, Inhabited

/-- What switches the rendition of a tone on; nothing does for plain text. -/
def Tone.start : Tone → String
  | plain => ""
  | title => "\x1b[1m\x1b[94m"
  | literal => "\x1b[96m"
  | placeholder => "\x1b[90m"

/-- A piece of text in one tone. -/
structure Piece where
  tone : Tone
  text : String
deriving DecidableEq, Repr, Inhabited

/-- A line of pieces. -/
abbrev Toned := List Piece

/-- A line of plain text. -/
def plain (s : String) : Toned := [⟨.plain, s⟩]

/-- A title. -/
def title (s : String) : Toned := [⟨.title, s⟩]

/-- A word to be typed as shown. -/
def literal (s : String) : Toned := [⟨.literal, s⟩]

/-- A word to be replaced. -/
def placeholder (s : String) : Toned := [⟨.placeholder, s⟩]

/-- The text of a piece. -/
def Piece.render (colored : Bool) (p : Piece) : String :=
  if colored && p.tone != .plain then p.tone.start ++ p.text ++ "\x1b[0m" else p.text

/-- The text of a line. -/
def Toned.render (colored : Bool) (t : Toned) : String :=
  String.join (t.map (Piece.render colored))

/-- How many columns a line takes. -/
def Toned.width (t : Toned) : Nat :=
  (t.map (fun p => p.text.length)).foldl (· + ·) 0

/-! ### Pages and their parts -/

/-- What is said about an option. -/
structure OptionEntry where
  short : Option Char := none
  long : String
  value : Option String := none
  text : String
  /-- Lines that the full form adds after an empty one. -/
  more : List Toned := []
  /-- What the short form adds on the same line. -/
  aside : String := ""
deriving DecidableEq, Repr, Inhabited

/-- What is said about the program or a command. -/
structure Page where
  /-- The first lines of the full form. -/
  full : List String
  /-- The first line of the short form. -/
  summary : String
  /-- The words of the usage line: those to be typed, and those to be replaced. -/
  invocation : String
  parameters : List String
  commands : List (String × String) := []
  arguments : List (String × String) := []
  options : List OptionEntry
  /-- The last lines of the full form. -/
  closing : List String := []
deriving DecidableEq, Repr, Inhabited

/-! ### Options -/

/-- The option for the format of the output. -/
def output : OptionEntry where
  long := "output"
  value := some "OUTPUT"
  text := "Output format"
  more := [
    plain "Possible values:",
    plain "- " ++ literal "table" ++ plain ":   Formatted table output (default)",
    plain "- " ++ literal "json" ++ plain ":    JSON output for scripting",
    plain "- " ++ literal "compact" ++ plain ": Compact single-line output",
    [],
    plain "[default: table]"]
  aside := " [default: table] [possible values: table, json, compact]"

/-- The option for silence. -/
def quiet : OptionEntry where
  short := some 'q'
  long := "quiet"
  text := "Suppress output (only errors will be shown)"

/-- The option for more messages. -/
def verbose : OptionEntry where
  short := some 'v'
  long := "verbose"
  text := "Enable verbose output"

/-- The option against colours. -/
def noColor : OptionEntry where
  long := "no-color"
  text := "Disable colored output"

/-- The option for the configuration file. -/
def config : OptionEntry where
  long := "config"
  value := some "FILE"
  text := "Configuration file (defaults to the nearest fielder.toml)"

/-- The option for the placement of new fields. -/
def insertion : OptionEntry where
  long := "insertion"
  value := some "INSERTION"
  text := "Where synthesized fields are placed: prepend or declaration-order"

/-- The option that makes warnings count. -/
def denyWarnings : OptionEntry where
  long := "deny-warnings"
  text := "Treat warnings as errors"

/-- The option to change sources where they are. -/
def write : OptionEntry where
  long := "write"
  text := "Rewrite changed files in place"

/-- The option to put sources elsewhere. -/
def outputDirectory : OptionEntry where
  long := "out-dir"
  value := some "DIR"
  text := "Write every scanned file, rewritten or not, below this directory"

/-- The option for help, whose text points to the other form. -/
def help (full : Bool) : OptionEntry where
  short := some 'h'
  long := "help"
  text :=
    if full then "Print help (see a summary with '-h')" else "Print help (see more with '--help')"

/-- The option for the version. -/
def version : OptionEntry where
  short := some 'V'
  long := "version"
  text := "Print version"

/-! ### Pages -/

/-- What a command does, in one line. -/
def about : Verb → String
  | .check => "Report what injection would do, without writing"
  | .inject => "Add the requested fields to sources"

/-- What asking for help does. -/
def aboutHelp : String :=
  "Print this message or the help of the given subcommand(s)"

/-- The paths that the commands take. -/
def pathArguments : List (String × String) :=
  [("[PATHS]...", "Files or directories to scan (defaults to the configured scan paths)")]

/-- A group of examples under a title. -/
def exampleGroup (title : String) (examples : List String) : List String :=
  ("  " ++ title) :: examples.map (fun e => "    → fielder " ++ e)

/-- The examples of a command. -/
def examples : Verb → List String
  | .check =>
    "Examples:" ::
      exampleGroup "Check Annotations" [
        "check                        # Check the configured scan paths",
        "check src/models             # Check one directory",
        "check --output json src      # Machine-readable diagnostics"] ++ "" ::
      exampleGroup "Strict Mode" [
        "check --deny-warnings      # Fail on skipped fields too"]
  | .inject =>
    "Examples:" ::
      exampleGroup "Preview" [
        "inject src                   # List the fields that would be added"] ++ "" ::
      exampleGroup "Rewrite" [
        "inject --write src                     # Rewrite sources in place",
        "inject --out-dir generated src         # Write rewritten copies elsewhere",
        "inject --insertion declaration-order   # Keep annotation order"]

/-- The options of a command. -/
def commandOptions (full : Bool) : Verb → List OptionEntry
  | .check => [insertion, output, denyWarnings, quiet, verbose, noColor, config, help full]
  | .inject =>
    [output, write, outputDirectory, quiet, insertion, verbose, denyWarnings, noColor, config,
      help full]

/-- The page on a command. -/
def commandPage (full : Bool) (v : Verb) : Page where
  full := [about v]
  summary := about v
  invocation := "fielder " ++ v.name
  parameters := ["[OPTIONS]", "[PATHS]..."]
  arguments := pathArguments
  options := commandOptions full v
  closing := examples v

/-- The page on the program. -/
def programPage (full : Bool) : Page where
  full := [
    "Reads #[fielder(...)] and #[add_fields(...)] annotations and adds the",
    "requested fields to struct declarations:",
    "",
    "• Each field is checked before it is added (struct kind, duplicates, constructors)",
    "• Failures are reported per field and never stop the rest of the round",
    "• Struct literals get the new fields via Default; struct patterns gain `..`",
    "",
    "Commands:",
    "  check     " ++ about .check,
    "  inject    " ++ about .inject,
    ""]
  summary := "Compile-time field injection for Rust structs"
  invocation := "fielder"
  parameters := ["[OPTIONS]", "<COMMAND>"]
  commands := [("check", about .check), ("inject", about .inject), ("help", aboutHelp)]
  options := [output, quiet, verbose, noColor, config, help full, version]
  closing := [
    "Environment Variables:",
    "  RUST_LOG  Log filter for engine tracing (e.g. fielder=debug)",
    "  NO_COLOR  Disable colored output",
    "",
    "Tip: Use 'fielder <command> --help' to view examples for each command."]

/-- The page on asking for help. -/
def helpPage : Page where
  full := [aboutHelp]
  summary := aboutHelp
  invocation := "fielder help"
  parameters := ["[COMMAND]..."]
  arguments := [("[COMMAND]...", "Print help for the subcommand(s)")]
  options := []

/-! ### Lines -/

/-- An option as it is written. -/
def OptionEntry.form (o : OptionEntry) : Toned :=
  (match o.short with
    | some c => literal s!"-{c}" ++ plain ", "
    | none => plain "    ") ++ literal ("--" ++ o.long) ++
  (match o.value with
    | some v => placeholder " " ++ placeholder ("<" ++ v ++ ">")
    | none => [])

/-- Blanks. -/
def blanks (n : Nat) : Toned :=
  plain (String.ofList (List.replicate n ' '))

/-- Names with texts beside them. -/
def columns (rows : List (Toned × String)) : List Toned :=
  let widest := (rows.map (fun r => r.1.width)).foldl max 0
  rows.map (fun r => blanks 2 ++ r.1 ++ blanks (widest - r.1.width + 2) ++ plain r.2)

/-- A paragraph under a name. -/
def paragraph (name : Toned) (text : String) (more : List Toned) : List Toned :=
  [blanks 2 ++ name, blanks 10 ++ plain text] ++
    (if more.isEmpty then [] else [] :: more.map (fun l => blanks 10 ++ l))

/-- Paragraphs with empty lines between them. -/
def paragraphs : List (List Toned) → List Toned
  | [] => []
  | [p] => p
  | p :: ps => p ++ [] :: paragraphs ps

/-- A section with a title, unless it has no lines. -/
def titled (name : String) (lines : List Toned) : List Toned :=
  if lines.isEmpty then [] else [[], title name] ++ lines

/-- The line that shows how to call the program. -/
def Page.usage (p : Page) : Toned :=
  title "Usage:" ++ plain " " ++ literal p.invocation ++
    p.parameters.flatMap (fun s => plain " " ++ placeholder s)

/-- The lines of a page. -/
def Page.lines (p : Page) (full : Bool) : List Toned :=
  let commands := p.commands.map (fun c => (literal c.1, c.2))
  let arguments := p.arguments.map (fun a => (placeholder a.1, a.2))
  if full then
    p.full.map plain ++ [[], p.usage] ++ titled "Commands:" (columns commands) ++
      titled "Arguments:" (paragraphs (arguments.map (fun a => paragraph a.1 a.2 []))) ++
      titled "Options:" (paragraphs (p.options.map (fun o => paragraph o.form o.text o.more))) ++
      (if p.closing.isEmpty then [] else [] :: p.closing.map plain)
  else
    [plain p.summary, [], p.usage] ++ titled "Commands:" (columns commands) ++
      titled "Arguments:" (columns arguments) ++
      titled "Options:" (columns (p.options.map (fun o => (o.form, o.text ++ o.aside))))

/-- The page on the program or a command. -/
def page (verb : Option Verb) (full : Bool) : List Toned :=
  match verb with
  | some v => (commandPage full v).lines full
  | none => (programPage full).lines full

/-- The line that tells the version. -/
def versionLine : String :=
  "fielder 0.1.0"

end FieldGraft.Help

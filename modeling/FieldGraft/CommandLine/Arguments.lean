import FieldGraft.FilePath
import FieldGraft.Placement

/-!
# Arguments

The arguments of the command line: options of the program, a command, and options and paths of that
command. An option that takes a value has it in the same argument after `=`, or in the next one. The
argument `--` ends the options.

A value in an argument of its own is judged when the next option, path or the end of its part is
reached. So a request for help on a command is answered even if the value in front of the command is
wrong.
-/

namespace FieldGraft

/-- What is shown about a run. -/
inductive OutputFormat where
  | table
  | json
  | compact
deriving DecidableEq, Repr, Inhabited

/-- Reads the name of a format. -/
def OutputFormat.ofName? : String → Option OutputFormat
  | "table" => some table
  | "json" => some json
  | "compact" => some compact
  | _ => none

/-- What the program can be told to do. -/
inductive Verb where
  | check
  | inject
deriving DecidableEq, Repr, Inhabited

namespace Verb

/-- The name on the command line. -/
def name : Verb → String
  | check => "check"
  | inject => "inject"

/-- Reads a name. -/
def ofName? : String → Option Verb
  | "check" => some check
  | "inject" => some inject
  | _ => none

end Verb

/-- Where changed sources go. -/
inductive WriteMode where
  /-- Nowhere. -/
  | preview
  /-- To where they were. -/
  | inPlace
  /-- Below a directory. -/
  | below (directory : FilePath)
deriving DecidableEq, Repr, Inhabited

/-- What the program is asked to do. -/
structure Arguments where
  verb : Verb
  paths : List FilePath := []
  format : OutputFormat := .table
  quiet : Bool := false
  verbose : Bool := false
  /-- Without colours and box-drawing characters. -/
  plain : Bool := false
  config : Option FilePath := none
  placement : Option Placement := none
  denyWarnings : Bool := false
  mode : WriteMode := .preview
deriving DecidableEq, Repr, Inhabited

/-- Arguments that ask for something else than a run. -/
inductive Detour where
  /-- They are not understood. -/
  | usage
  /-- Help on the program or a command, in full or in short. -/
  | help (verb : Option Verb) (full : Bool)
  /-- Help on asking for help. -/
  | helpOnHelp
  | version
deriving DecidableEq, Repr, Inhabited

namespace Arguments

/-- An option without a value. -/
inductive Flag where
  | quiet
  | verbose
  | plain
  | denyWarnings
  | write
deriving DecidableEq, Repr, Inhabited

/-- An option with a value. -/
inductive Setting where
  | output
  | config
  | insertion
  | outputDirectory
deriving DecidableEq, Repr, Inhabited

/-- The flag with a long name, before a command or among the options of one. -/
def flag? (verb : Option Verb) : String → Option Flag
  | "quiet" => some .quiet
  | "verbose" => some .verbose
  | "no-color" => some .plain
  | "deny-warnings" => if verb.isSome then some .denyWarnings else none
  | "write" => if verb = some .inject then some .write else none
  | _ => none

/-- The flag with a short name. -/
def shortFlag? : Char → Option Flag
  | 'q' => some .quiet
  | 'v' => some .verbose
  | _ => none

/-- The setting with a long name, before a command or among the options of one. -/
def setting? (verb : Option Verb) : String → Option Setting
  | "output" => some .output
  | "config" => some .config
  | "insertion" => if verb.isSome then some .insertion else none
  | "out-dir" => if verb = some .inject then some .outputDirectory else none
  | _ => none

/-- Whether a setting may have a value. -/
def Setting.accepts (s : Setting) (value : String) : Bool :=
  match s with
  | output => (OutputFormat.ofName? value).isSome
  | config => value != ""
  | outputDirectory => value != ""
  | insertion =>
    match Placement.ofName value with
    | .ok _ => true
    | .error _ => false

/-- The part of the arguments before the command, or from the command on. -/
structure Part where
  verb : Option Verb
  flags : List Flag := []
  values : List (Setting × String) := []
  paths : List FilePath := []
  /-- A setting whose value has not been judged, with the value if it has been read. -/
  pending : Option (Setting × Option String) := none
deriving DecidableEq, Repr, Inhabited

namespace Part

/-- Gives a setting its value. No setting is given twice. -/
def assign (p : Part) (s : Setting) (value : String) : Except Detour Part :=
  if p.values.any (fun v => v.1 == s) || !s.accepts value then .error .usage
  else .ok { p with values := p.values ++ [(s, value)] }

/-- Judges the pending value. -/
def settle (p : Part) : Except Detour Part :=
  match p.pending with
  | none => .ok p
  | some (_, none) => .error .usage
  | some (s, some value) => { p with pending := none }.assign s value

/-- Sets a flag. No flag is set twice. -/
def raise (p : Part) (f : Flag) : Except Detour Part := do
  let p ← p.settle
  if p.flags.contains f then .error .usage else return { p with flags := p.flags ++ [f] }

/-- An option with a long name, and its value if that is in the same argument. -/
def long (p : Part) (name : String) (value : Option String) : Except Detour Part :=
  match flag? p.verb name, setting? p.verb name, value with
  | some f, _, none => p.raise f
  | none, some s, some value => do (← p.settle).assign s value
  | none, some s, none => do return { (← p.settle) with pending := some (s, none) }
  | none, none, none => do
    if name = "help" then
      let p ← p.settle
      .error (.help p.verb true)
    else if name = "version" ∧ p.verb = none then
      let _ ← p.settle
      .error .version
    else .error .usage
  | _, _, _ => .error .usage

/-- Options with short names in one argument. -/
def short (p : Part) : List Char → Except Detour Part
  | [] => .ok p
  | c :: cs =>
    match shortFlag? c with
    | some f =>
      match p.raise f with
      | .ok p => short p cs
      | .error d => .error d
    | none => do
      let p ← p.settle
      if c = 'h' then .error (.help p.verb false)
      else if c = 'V' ∧ p.verb = none then .error .version
      else .error .usage

/-- A path. -/
def path (p : Part) (text : String) : Except Detour Part := do
  let p ← p.settle
  if text = "" then .error .usage else return { p with paths := p.paths ++ [⟨text⟩] }

/-- Whether a setting waits for its value. -/
def waits (p : Part) : Option Setting :=
  match p.pending with
  | some (s, none) => some s
  | _ => none

end Part

/-- The name and the value of a long option, without its dashes. -/
def splitLong (cs : List Char) : String × Option String :=
  let name := String.ofList (cs.takeWhile (fun c => c != '='))
  match cs.dropWhile (fun c => c != '=') with
  | _ :: value => (name, some (String.ofList value))
  | [] => (name, none)

/-- Takes an argument that is an option. -/
def Part.option (p : Part) (cs : List Char) : Except Detour Part :=
  match cs with
  | '-' :: rest =>
    let (name, value) := splitLong rest
    p.long name value
  | _ => p.short cs

/-- The arguments of a command; `options` tells whether options may still follow. -/
def readCommand : (options : Bool) → Part → List String → Except Detour Part
  | _, p, [] => p.settle
  | false, p, a :: rest =>
    match p.path a with
    | .ok p => readCommand false p rest
    | .error d => .error d
  | true, p, a :: rest =>
    match p.waits, a.toList with
    | some _, '-' :: _ :: _ => .error .usage
    | some s, _ => readCommand true { p with pending := some (s, some a) } rest
    | none, ['-', '-'] => readCommand false p rest
    | none, '-' :: c :: cs =>
      match p.option (c :: cs) with
      | .ok p => readCommand true p rest
      | .error d => .error d
    | none, _ =>
      match p.path a with
      | .ok p => readCommand true p rest
      | .error d => .error d

/-- What `help` with names after it asks for. -/
def readHelp : List String → Detour
  | [] => .help none true
  | [name] =>
    match Verb.ofName? name with
    | some v => .help (some v) true
    | none => if name = "help" then .helpOnHelp else .usage
  | _ => .usage

/-- The arguments up to the command, and the command with what follows it. -/
def readTop : Part → List String → Except Detour (Part × Part)
  | _, [] => .error .usage
  | p, a :: rest =>
    match p.waits, a.toList with
    | some _, '-' :: _ :: _ => .error .usage
    | some s, _ => readTop { p with pending := some (s, some a) } rest
    | none, ['-', '-'] => .error .usage
    | none, '-' :: c :: cs =>
      match p.option (c :: cs) with
      | .ok p => readTop p rest
      | .error d => .error d
    | none, _ =>
      match Verb.ofName? a with
      | some v =>
        match readCommand true { verb := some v } rest with
        | .ok command => .ok (p, command)
        | .error d => .error d
      | none => .error (if a = "help" then readHelp rest else .usage)

/-- The value of a setting; one given after the command comes before one given in front of it. -/
def valueOf? (top command : Part) (s : Setting) : Option String :=
  (command.values.lookup s).or (top.values.lookup s)

/-- Where changed sources go, unless two places are asked for. -/
def modeOf (command : Part) : Except Detour WriteMode :=
  match command.flags.contains .write, command.values.lookup .outputDirectory with
  | true, some _ => .error .usage
  | true, none => .ok .inPlace
  | false, some directory => .ok (.below ⟨directory⟩)
  | false, none => .ok .preview

/-- Reads the arguments. -/
def ofList (args : List String) : Except Detour Arguments := do
  let (top, command) ← readTop { verb := none } args
  let mode ← modeOf command
  let top ← top.settle
  let raised (f : Flag) := top.flags.contains f || command.flags.contains f
  match command.verb with
  | none => .error .usage
  | some verb =>
    return {
      verb, mode
      paths := command.paths
      format := ((valueOf? top command .output).bind OutputFormat.ofName?).getD .table
      quiet := raised .quiet
      verbose := raised .verbose
      plain := raised .plain
      config := (valueOf? top command .config).map FilePath.mk
      placement := (command.values.lookup .insertion).bind (fun s => (Placement.ofName s).toOption)
      denyWarnings := raised .denyWarnings }

end Arguments

end FieldGraft

import FieldGraft.Session
import FieldGraft.Text.Escape

/-!
# Expansion of an annotated module

The attribute `#[inject]` on an inline module runs a round over the items of the module. The result
is the new module, followed by a compile error for each error diagnostic and by a deprecated
constant for each warning, whose use makes the compiler show it. If the arguments or the module
cannot be read, a compile error takes the place of the module.
-/

namespace FieldGraft

/-- Why a module is not expanded. -/
inductive ExpansionError where
  | arguments (cause : SyntaxError)
  | item (cause : SyntaxError)
  /-- The module has no body. -/
  | noBody
deriving DecidableEq, Repr, Inhabited

/-- The text shown to the user. -/
def ExpansionError.message : ExpansionError → String
  | arguments e => e.message
  | item e => e.message
  | noBody => "#[inject] needs an inline module body: `mod name \x7b ... \x7d`"

namespace Expansion

open FieldGraft.Parser

/-- One argument of the attribute. A later one replaces an earlier one. -/
def argument (_ : Placement) (path : Bool × List Word) : Parser Placement := do
  if Annotations.isName path "insertion" then
    let _ ← op "="
    match Placement.ofName (← Annotations.stringLiteral) with
    | .ok p => return p
    | .error e => failWith e.message
  else failWith "unsupported inject argument; expected `insertion`"

/-- Reads the arguments of the attribute. -/
def readArguments (ts : List TokenTree) : Except ExpansionError Placement :=
  if ts.isEmpty then .ok .prepend
  else match runAll (Annotations.propertyList argument .prepend) ts with
    | .ok p => .ok p
    | .error e => .error (.arguments e)

/-- Reads the module. -/
def readModule (ts : List TokenTree) : Except ExpansionError Item :=
  let g := grammarFor ts
  match runAll (do g.moduleItem (← g.outerAttributes)) ts with
  | .ok i => .ok i
  | .error e => .error (.item e)

/-- The string literal of a text. -/
def literalTree (s : String) : TokenTree :=
  .leaf {} (.literal (Text.quote s))

/-- A compile error. -/
def compileError (message : String) : List TokenTree :=
  opText "::" ++ keywordTree "core" :: opText "::" ++ keywordTree "compile_error" :: opText "!" ++
    [.group {} .brace [literalTree message]]

/-- An attribute in generated code. -/
def generatedAttribute (name : String) (args : List TokenTree) : List TokenTree :=
  opText "#" ++ [.group {} .bracket [keywordTree name, .group {} .paren args]]

/-- The name of the constant for the diagnostic at a position. -/
def warningName (index : Nat) : String :=
  s!"fielder_warning_{index}"

/-- `: () =` after the name of a constant. -/
def unitType : List TokenTree :=
  opText ":" ++ .group {} .paren [] :: opText "="

/-- A constant whose use is deprecated with the given message. -/
def warningBlock (index : Nat) (message : String) : List TokenTree :=
  let name := keywordTree (warningName index)
  let content :=
    generatedAttribute "deprecated" (keywordTree "note" :: opText "=" ++ [literalTree message]) ++
    generatedAttribute "allow" [keywordTree "non_upper_case_globals"] ++
    keywordTree "const" :: name :: unitType ++ .group {} .paren [] :: opText ";" ++ [name]
  keywordTree "const" :: keywordTree "_" :: unitType ++ .group {} .brace content :: opText ";"

/-- The compile errors of a round. -/
def errorTrees (ds : List Diagnostic) : List TokenTree :=
  (ds.filter (fun d => d.severity == .error)).flatMap (fun d => compileError d.message)

/-- The warnings of a round; each is numbered by its position among all diagnostics. -/
def warningTrees (ds : List Diagnostic) : List TokenTree :=
  ds.zipIdx.flatMap fun (d, index) =>
    if d.severity == .warning then warningBlock index d.message else []

/-- Expands a module. -/
def expandModule (placement : Placement) (item : Item) : Except ExpansionError (List TokenTree) :=
  match item with
  | .module attrs lead name inner items =>
    let session : Session := { host := .source .attributeHost, placement }
    let (_, items, report) := session.injectItems items
    .ok ((Item.module attrs lead name inner items).trees ++ errorTrees report.diagnostics ++
      warningTrees report.diagnostics)
  | _ => .error .noBody

/-- Expands the tokens of a module under the tokens of the arguments. -/
def expandTrees (args item : List TokenTree) : Except ExpansionError (List TokenTree) := do
  let placement ← readArguments args
  expandModule placement (← readModule item)

end Expansion

/-- The tokens that replace an annotated module, if both texts are sequences of tokens. -/
def expand (args item : String) : Option (List TokenTree) :=
  match lex args, lex item with
  | some args, some item =>
    match Expansion.expandTrees args item with
    | .ok ts => some ts
    | .error e => some (Expansion.compileError e.message)
  | _, _ => none

end FieldGraft

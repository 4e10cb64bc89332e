import FieldGraft.Text.Search

/-!
# JSON documents

A JSON value and its text with two blanks of indentation for each level. The members of an object
keep their order.
-/

namespace FieldGraft

/-- A JSON value. -/
inductive JsonDoc where
  | null
  | number (n : Nat)
  | string (s : String)
  | array (elements : List JsonDoc)
  | object (members : List (String × JsonDoc))
deriving Repr, Inhabited

namespace JsonDoc

/-- One character of a string. -/
def escapeChar (c : Char) : List Char :=
  if c = '"' then ['\\', '"']
  else if c = '\\' then ['\\', '\\']
  else if c = '\n' then ['\\', 'n']
  else if c = '\r' then ['\\', 'r']
  else if c = '\t' then ['\\', 't']
  else if c.toNat = 0x08 then ['\\', 'b']
  else if c.toNat = 0x0c then ['\\', 'f']
  else if c.toNat < 0x20 then
    let digits := (Text.hex c.toNat).toList
    ['\\', 'u'] ++ List.replicate (4 - digits.length) '0' ++ digits
  else [c]

/-- A string between its quotes. -/
def quoted (s : String) : String :=
  String.ofList ('"' :: s.toList.flatMap escapeChar ++ ['"'])

/-- The start of a line at a level. -/
def indent (level : Nat) : String :=
  String.ofList (List.replicate (2 * level) ' ')

/-- Parts on lines of their own between two brackets. -/
def block (left right : String) (level : Nat) (parts : List String) : String :=
  if parts.isEmpty then left ++ right
  else left ++ "\n" ++ ",\n".intercalate (parts.map (fun p => indent (level + 1) ++ p)) ++ "\n" ++
    indent level ++ right

mutual

/-- The text of a value that starts on a line at a level. -/
def render (level : Nat) : JsonDoc → String
  | null => "null"
  | number n => toString n
  | string s => quoted s
  | array xs => block "[" "]" level (renderList (level + 1) xs)
  | object ms => block "\x7b" "\x7d" level (renderMembers (level + 1) ms)

/-- The texts of the elements of an array. -/
def renderList (level : Nat) : List JsonDoc → List String
  | [] => []
  | x :: xs => render level x :: renderList level xs

/-- The texts of the members of an object. -/
def renderMembers (level : Nat) : List (String × JsonDoc) → List String
  | [] => []
  | (k, v) :: ms => (quoted k ++ ": " ++ render level v) :: renderMembers level ms

end

end JsonDoc

end FieldGraft

import FieldGraft.Text.Blank
import FieldGraft.Text.Search

/-!
# Field modifiers

A field carries up to three visibility flags and two storage flags. Annotations write them as a
number, whose bits are part of the annotation surface (`9` is `public static`), or as keywords.

* `Modifiers.ofBits` accepts a number iff it has known bits only and at most one visibility.
* `Modifiers.ofKeywords` accepts a text iff all its words are keywords and the same check passes.
* `Modifiers.bits` reads the number back.
-/

namespace FieldGraft

/-- The flags of a field. -/
structure Modifiers where
  isPublic : Bool := false
  isPrivate : Bool := false
  isProtected : Bool := false
  isStatic : Bool := false
  isFinal : Bool := false
deriving DecidableEq, Repr, Inhabited

namespace Modifiers

/-- No flag at all. -/
def none : Modifiers := {}

/-- Public and nothing else. -/
def publicOnly : Modifiers := { isPublic := true }

/-- Visible in the crate and nothing else. -/
def crateOnly : Modifiers := { isProtected := true }

/-- The number that stands for the flags. -/
def bits (m : Modifiers) : Nat :=
  m.isPublic.toNat + 2 * m.isPrivate.toNat + 4 * m.isProtected.toNat + 8 * m.isStatic.toNat +
    16 * m.isFinal.toNat

/-- The flags of the five lowest bits. -/
def ofLowBits (n : Nat) : Modifiers where
  isPublic := n.testBit 0
  isPrivate := n.testBit 1
  isProtected := n.testBit 2
  isStatic := n.testBit 3
  isFinal := n.testBit 4

/-- All flags of both sets. -/
def union (a b : Modifiers) : Modifiers where
  isPublic := a.isPublic || b.isPublic
  isPrivate := a.isPrivate || b.isPrivate
  isProtected := a.isProtected || b.isProtected
  isStatic := a.isStatic || b.isStatic
  isFinal := a.isFinal || b.isFinal

/-- Every flag of `b` is set in `a`. -/
def contains (a b : Modifiers) : Bool :=
  (!b.isPublic || a.isPublic) && (!b.isPrivate || a.isPrivate) &&
    (!b.isProtected || a.isProtected) && (!b.isStatic || a.isStatic) && (!b.isFinal || a.isFinal)

/-- No flag is set. -/
def isEmpty (m : Modifiers) : Bool :=
  m = none

/-- How many of the three visibilities are requested. -/
def visibilityCount (m : Modifiers) : Nat :=
  m.isPublic.toNat + m.isPrivate.toNat + m.isProtected.toNat

/-- The keywords in their order, each with the flag it sets. -/
def keywords : List (String × Modifiers) :=
  [("public", { isPublic := true }), ("private", { isPrivate := true }),
    ("protected", { isProtected := true }), ("static", { isStatic := true }),
    ("final", { isFinal := true })]

/-- The keywords of the set flags, or `none` for the empty set. -/
def display (m : Modifiers) : String :=
  if m.isEmpty then "none"
  else " ".intercalate ((keywords.filter (fun k => m.contains k.2)).map Prod.fst)

/-- How the visibility of a field is written in source code; storage flags have no counterpart. -/
def visibilityText (m : Modifiers) : String :=
  if m.isPublic then "pub" else if m.isProtected then "pub(crate)" else ""

end Modifiers

/-- Why a modifier input is refused. -/
inductive ModifierError where
  /-- The number has bits above the known ones. -/
  | unknownBits (bits unknown : Nat)
  /-- More than one visibility is requested. -/
  | conflictingVisibility (requested : Modifiers)
  /-- A word is not a modifier keyword. -/
  | unknownKeyword (word : String)
deriving DecidableEq, Repr, Inhabited

namespace ModifierError

/-- The text shown to the user. -/
def message : ModifierError → String
  | unknownBits bits unknown =>
    s!"unknown modifier bits 0x{Text.hex unknown} in 0x{Text.hex bits}"
  | conflictingVisibility m => s!"more than one visibility requested ({m.display})"
  | unknownKeyword w => s!"unknown modifier keyword `{w}`"

end ModifierError

namespace Modifiers

/-- Accepts a number with known bits only and at most one visibility. -/
def ofBits (n : Nat) : Except ModifierError Modifiers :=
  if n < 32 then
    let m := ofLowBits n
    if m.visibilityCount ≤ 1 then .ok m else .error (.conflictingVisibility m)
  else .error (.unknownBits n (n - n % 32))

/-- A blank or `|` separates two keywords. -/
def isSeparator (c : Char) : Bool :=
  Text.isBlank c || c == '|'

/-- The flag of one keyword. -/
def ofKeyword (w : List Char) : Except ModifierError Modifiers :=
  match keywords.find? (fun k => k.1.toList == w) with
  | some k => .ok k.2
  | .none => .error (.unknownKeyword (String.ofList w))

/-- All flags of a list of words; the first unknown word is the error. -/
def ofWords : List (List Char) → Except ModifierError Modifiers
  | [] => .ok none
  | w :: ws => do
    let m ← ofKeyword w
    let rest ← ofWords ws
    return m.union rest

/-- Reads keywords separated by blanks or `|`. -/
def ofKeywords (text : String) : Except ModifierError Modifiers := do
  let m ← ofWords (Text.wordsBy isSeparator text.toList)
  ofBits m.bits

end Modifiers

end FieldGraft

/-!
# Regular expressions

A regular expression describes texts. `Regex.occursIn` asks whether some part of a text is among the
texts described; which part and how long it is does not matter, so there is no order among
alternatives or repetitions.

* `Regex.ends` gives the places where a match that starts at a given place can end.
-/

namespace FieldGraft

/-- A set of characters. -/
inductive CharSet where
  /-- The characters between two code points, both included. -/
  | range (low high : Nat)
  | union (sets : List CharSet)
  | intersection (left right : CharSet)
  | difference (left right : CharSet)
  | complement (set : CharSet)
deriving Repr, Inhabited

namespace CharSet

mutual

/-- Whether a character belongs to a set. -/
def contains (c : Char) : CharSet → Bool
  | range low high => low ≤ c.toNat && c.toNat ≤ high
  | union sets => someContains c sets
  | intersection left right => left.contains c && right.contains c
  | difference left right => left.contains c && !right.contains c
  | complement set => !set.contains c

/-- Whether a character belongs to one of the sets. -/
def someContains (c : Char) : List CharSet → Bool
  | [] => false
  | set :: sets => set.contains c || someContains c sets

end

/-- The set of one character. -/
def single (c : Char) : CharSet := range c.toNat c.toNat

/-- The characters of a text. -/
def ofText (s : String) : CharSet := union (s.toList.map single)

/-- The characters between two. -/
def between (low high : Char) : CharSet := range low.toNat high.toNat

/-- All characters. -/
def any : CharSet := complement (union [])

def digits : CharSet := between '0' '9'
def lowerLetters : CharSet := between 'a' 'z'
def upperLetters : CharSet := between 'A' 'Z'
def letters : CharSet := union [lowerLetters, upperLetters]
def alphanumerics : CharSet := union [letters, digits]
def wordCharacters : CharSet := union [alphanumerics, single '_']
def blanks : CharSet := union [range 0x09 0x0d, single ' ']

/-- The set closed under the case of its letters. -/
def ignoringCase (set : CharSet) : CharSet :=
  union (set :: ("abcdefghijklmnopqrstuvwxyz".toList.flatMap fun c =>
    let upper := Char.ofNat (c.toNat - 32)
    (if set.contains c then [single upper] else []) ++
      if set.contains upper then [single c] else []))

end CharSet

/-- What can be said of a place in a text. -/
inductive Look where
  | textStart
  | textEnd
  | lineStart
  | lineEnd
  /-- Line ends may have a carriage return before them. -/
  | lineStartWithReturn
  | lineEndWithReturn
  | wordBoundary
  | noWordBoundary
  | wordStart
  | wordEnd
  /-- No word character stands before the place. -/
  | wordStartHalf
  /-- No word character stands after the place. -/
  | wordEndHalf
deriving DecidableEq, Repr, Inhabited

/-- A regular expression. -/
inductive Regex where
  | empty
  | chars (set : CharSet)
  | look (l : Look)
  | both (first second : Regex)
  | either (left right : Regex)
  /-- At least `low` times, and at most `high` times if that is given. -/
  | repeated (low : Nat) (high : Option Nat) (r : Regex)
deriving Repr, Inhabited

/-- Whether a place is as described. -/
def Look.holds (text : Array Char) (i : Nat) (l : Look) : Bool :=
  let before := if i = 0 then none else text[i - 1]?
  let after := text[i]?
  let isWord (c : Option Char) : Bool := c.any (fun c => CharSet.wordCharacters.contains c)
  match l with
  | textStart => before.isNone
  | textEnd => after.isNone
  | lineStart => before.isNone || before == some '\n'
  | lineEnd => after.isNone || after == some '\n'
  | lineStartWithReturn =>
    before.isNone || before == some '\n' || before == some '\r' && after != some '\n'
  | lineEndWithReturn =>
    after.isNone || after == some '\r' || after == some '\n' && before != some '\r'
  | wordBoundary => isWord before != isWord after
  | noWordBoundary => isWord before == isWord after
  | wordStart => !isWord before && isWord after
  | wordEnd => isWord before && !isWord after
  | wordStartHalf => !isWord before
  | wordEndHalf => !isWord after

namespace Regex

/-- Adds the places that are not there yet. -/
def merge (new old : List Nat) : List Nat :=
  new.foldl (fun acc i => if acc.contains i then acc else i :: acc) old

/-- The places reached from one of the given places. -/
def stepAll (step : Nat → List Nat) (places : List Nat) : List Nat :=
  places.foldl (fun acc i => merge (step i) acc) []

/-- The places after exactly that many steps. -/
def stepTimes (step : Nat → List Nat) : Nat → List Nat → List Nat
  | 0, places => places
  | n + 1, places => stepTimes step n (stepAll step places)

/-- The places after at most that many steps. -/
def stepUpTo (step : Nat → List Nat) : Nat → List Nat → List Nat
  | 0, places => places
  | n + 1, places =>
    merge places (stepUpTo step n (stepAll step places))

/-- The places where a match that starts at a place can end. More steps than there are places reach
nothing new, since a step never goes back. -/
def ends (text : Array Char) : Regex → Nat → List Nat
  | empty, i => [i]
  | chars set, i =>
    match text[i]? with
    | some c => if set.contains c then [i + 1] else []
    | none => []
  | look l, i => if l.holds text i then [i] else []
  | both first second, i => stepAll (ends text second) (ends text first i)
  | either left right, i => merge (ends text left i) (ends text right i)
  | repeated low high r, i =>
    let places := text.size + 1
    let further := match high with
      | some h => min (h - low) places
      | none => places
    stepUpTo (ends text r) further (stepTimes (ends text r) (min low places) [i])

/-- Whether some part of a text is described. -/
def occursIn (r : Regex) (s : String) : Bool :=
  let text := s.toList.toArray
  (List.range (text.size + 1)).any (fun i => !(r.ends text i).isEmpty)

/-- The expressions one after the other. -/
def sequence (rs : List Regex) : Regex :=
  rs.foldr both empty

/-- One of the expressions. -/
def choice : List Regex → Regex
  | [] => empty
  | [r] => r
  | r :: rs => either r (choice rs)

end Regex

end FieldGraft

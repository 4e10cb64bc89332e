/-!
# Sets of code points

A set of code points is given by the increasing list of the places where membership changes: the
first entry is the first member, the next the first non-member after it, and so on.
-/

namespace FieldGraft.Text

/-- Whether `n` lies in the set with the given change points: it does iff an odd number of them is
at or before it. -/
def inBounds (bounds : List Nat) (n : Nat) : Bool :=
  match bounds with
  | [] => false
  | [first] => first ≤ n
  | first :: stop :: rest =>
    if n < first then false else if n < stop then true else inBounds rest n

end FieldGraft.Text

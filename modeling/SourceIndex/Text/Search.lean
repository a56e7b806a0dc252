/-!
# Searching

The first occurrence of one list in another, from a given offset.  An offset below zero counts from
the end, and one past the end finds nothing, not even the empty list.
-/

namespace SourceIndex.Text

variable {α : Type} [BEq α]

/-- The position of the first occurrence of `pattern`, counted from `n`. -/
def indexFrom (pattern : List α) (n : Nat) : List α → Option Nat
  | [] => if pattern.isEmpty then some n else none
  | x :: rest => if pattern.isPrefixOf (x :: rest) then some n else indexFrom pattern (n + 1) rest

/-- The position an offset stands for in a list of `length` elements. -/
def position (length : Nat) (offset : Int) : Nat :=
  if offset < 0 then (length + offset).toNat else offset.toNat

/-- How many elements stand before the first occurrence of `pattern` at or after `offset`. -/
def indexOfFrom? (pattern text : List α) (offset : Int) : Option Nat :=
  let start := position text.length offset
  if text.length < start then none else indexFrom pattern start (text.drop start)

end SourceIndex.Text

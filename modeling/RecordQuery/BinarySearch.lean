/-!
# Binary search

A list that begins with the items for which a test holds and goes on with those for which it fails
is cut between the two by halving: the item in the middle of the remaining stretch tells in which
half the cut lies.
-/

namespace RecordQuery.BinarySearch

variable {α : Type}

/-- Where a stretch from `low` up to `high` is cut: to the right of a middle item that passes the
test, and not to the right of one that fails it. -/
def cut (test : α → Bool) (items : List α) (low high : Nat) : Nat :=
  if low < high then
    let middle := (low + high) / 2
    if items[middle]?.any test then cut test items (middle + 1) high
    else cut test items low middle
  else low
termination_by high - low

/-- The position before the first item that is not less, in a list in order. -/
def lowerBound (compare : α → Ordering) (items : List α) : Nat :=
  cut (fun item => (compare item).isLT) items 0 items.length

/-- The position before the first item that is greater, in a list in order. -/
def upperBound (compare : α → Ordering) (items : List α) : Nat :=
  cut (fun item => (compare item).isLE) items 0 items.length

end RecordQuery.BinarySearch

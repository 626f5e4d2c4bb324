import RecordQuery.Number.Binary64

/-!
# Numbers of several kinds on one line

Truth values, integers and binary64 numbers are compared by exact value on the line extended by
two infinities. Truth values count as 0 and 1. A number that is no number has no place on the line
and compares with nothing.
-/

namespace RecordQuery

/-- What takes part in numeric comparison. -/
inductive Numeric where
  | truth (b : Bool)
  | int (n : Int)
  | float (x : Binary64)
  deriving DecidableEq, Repr, Inhabited

/-- A place on the extended line; `finite s e` is s · 2^e. -/
inductive Place where
  | below
  | finite (significand exponent : Int)
  | above
  deriving DecidableEq, Repr

namespace Place

/-- The significand brought to the smaller exponent `low`. -/
def scaledTo (low significand exponent : Int) : Int :=
  significand * Int.pow 2 (exponent - low).toNat

/-- The order of the line. -/
def compare : Place → Place → Ordering
  | .below, .below => .eq
  | .below, _ => .lt
  | .above, .above => .eq
  | .above, _ => .gt
  | .finite _ _, .below => .gt
  | .finite _ _, .above => .lt
  | .finite s e, .finite t f =>
    let low := min e f
    Ord.compare (scaledTo low s e) (scaledTo low t f)

end Place

namespace Numeric

/-- The place of a number; not-a-number has none. -/
def place? : Numeric → Option Place
  | .truth b => some (.finite (if b then 1 else 0) 0)
  | .int n => some (.finite n 0)
  | .float (.nan _) => none
  | .float (.infinite true) => some .below
  | .float (.infinite false) => some .above
  | .float (.finite true m e) => some (.finite (-(m : Int)) e)
  | .float (.finite false m e) => some (.finite m e)

/-- The order of two numbers, when both have a place. -/
def compare? (a b : Numeric) : Option Ordering :=
  match a.place?, b.place? with
  | some p, some q => some (p.compare q)
  | _, _ => none

/-- Equality of exact values. -/
def equals (a b : Numeric) : Bool :=
  a.compare? b == some .eq

end Numeric

end RecordQuery

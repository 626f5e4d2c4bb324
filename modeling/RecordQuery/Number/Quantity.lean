import RecordQuery.Number.Decimal
import RecordQuery.Number.Numeric

/-!
# Decimals beside numbers

Values are equal and ordered across numbers, truth values and decimals, all by exact value. Nothing
else takes a decimal for a number: it is no count, and a key holds its text.
-/

namespace RecordQuery

/-- What is equal and ordered by exact value. -/
inductive Quantity where
  | numeric (n : Numeric)
  /-- A coefficient with a power of ten, negated when `negative` holds. -/
  | decimal (negative : Bool) (d : Decimal)
  deriving DecidableEq, Repr, Inhabited

namespace Place

/-- The place five times as far from zero, `count` times over. -/
def timesFive (count : Int) : Place → Place
  | .finite significand exponent => .finite (significand * Int.pow 5 count.toNat) exponent
  | place => place

end Place

namespace Quantity

/-- The place of a quantity, which is counted in units of a power of five; not-a-number has none. -/
def place? : Quantity → Option (Place × Int)
  | .numeric n => n.place?.map (·, 0)
  | .decimal negative ⟨coefficient, exponent⟩ =>
    some (.finite (if negative then -(coefficient : Int) else coefficient) exponent, exponent)

/-- The order of two quantities, when both have a place. -/
def compare? (a b : Quantity) : Option Ordering :=
  match a.place?, b.place? with
  | some (p, e), some (q, f) =>
    let low := min e f
    some ((p.timesFive (e - low)).compare (q.timesFive (f - low)))
  | _, _ => none

/-- Whether two quantities are equal, or one and the same not-a-number. -/
def isSame (a b : Quantity) : Bool := a.compare? b == some .eq || a == b

end Quantity

namespace Decimal

/-- The integer part of a decimal, cut toward zero. -/
def truncate (negative : Bool) (d : Decimal) : Int :=
  let whole := if 0 ≤ d.exponent then d.coefficient * Nat.pow 10 d.exponent.toNat
    else d.coefficient / Nat.pow 10 (-d.exponent).toNat
  if negative then -(whole : Int) else whole

end Decimal

end RecordQuery

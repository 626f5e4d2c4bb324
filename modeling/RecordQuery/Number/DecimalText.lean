import RecordQuery.Number.Decimal

/-!
# The text of a number

A decimal is written positionally or with an exponent part. For a binary64 number two layouts share
one writer: the plain text, which reads back as the same number, and the brief text of table cells,
which has at most six significant digits. A layout says which leading exponents are written without an
exponent part and whether a whole number keeps a fraction. A decimal of its own is written with all
the digits that it has.
-/

namespace RecordQuery

/-- How a decimal is laid out. -/
structure DecimalLayout where
  /-- The least leading exponent that is written positionally. -/
  leastPositional : Int
  /-- The greatest leading exponent that is written positionally. -/
  greatestPositional : Int
  /-- What follows a whole number that is written positionally. -/
  wholeFraction : String
  deriving Repr

namespace Decimal

/-- The exponent of the first digit that is written. -/
def leading (d : Decimal) : Int := ((Nat.toDigits 10 d.coefficient).length : Int) - 1 + d.exponent

/-- The decimal written out; a whole number that has no digits behind the point ends in the given
fraction. -/
def positional (wholeFraction : String) (d : Decimal) : String :=
  let digits := Nat.toDigits 10 d.coefficient
  if 0 ≤ d.exponent then
    String.ofList (digits ++ List.replicate d.exponent.toNat '0') ++ wholeFraction
  else if 0 ≤ d.leading then
    let whole := d.leading.toNat + 1
    String.ofList (digits.take whole) ++ "." ++ String.ofList (digits.drop whole)
  else
    "0." ++ String.ofList (List.replicate ((-d.leading).toNat - 1) '0' ++ digits)

/-- The decimal written with one digit before the point and the given exponent part. -/
def scientific (exponentPart : String) (d : Decimal) : String :=
  let digits := Nat.toDigits 10 d.coefficient
  let fraction := if digits.length = 1 then "" else "." ++ String.ofList (digits.drop 1)
  String.ofList (digits.take 1) ++ fraction ++ exponentPart

/-- The text of a decimal: positional unless its exponent is positive or its first digit stands more
than six places behind the point. -/
def text (negative : Bool) (d : Decimal) : String :=
  let sign := if d.leading < 0 then "E-" else "E+"
  let magnitude := if d.exponent ≤ 0 ∧ -6 ≤ d.leading then d.positional ""
    else d.scientific (sign ++ Nat.repr d.leading.natAbs)
  if negative then "-" ++ magnitude else magnitude

end Decimal

namespace DecimalLayout

/-- The plain text: positional from 10^-4 up to 10^15, and a whole number ends in ".0". -/
def plain : DecimalLayout := ⟨-4, 15, ".0"⟩

/-- The brief text: positional from 10^-4 up to 10^5, and a whole number has no fraction. -/
def brief : DecimalLayout := ⟨-4, 5, ""⟩

/-- An exponent part has a sign and at least two digits. -/
def exponentText (e : Int) : String :=
  let digits := Nat.repr e.natAbs
  let padded := if digits.length < 2 then "0" ++ digits else digits
  (if e < 0 then "e-" else "e+") ++ padded

/-- The positive decimal written out, its coefficient without ending zeros. -/
def write (layout : DecimalLayout) (d : Decimal) : String :=
  if d.leading < layout.leastPositional ∨ layout.greatestPositional < d.leading then
    d.scientific (exponentText d.leading)
  else d.positional layout.wholeFraction

end DecimalLayout

namespace Binary64

/-- The text in a layout, given how a positive magnitude is brought to a decimal. -/
def textWith (layout : DecimalLayout) (decimal : Nat → Int → Decimal) : Binary64 → String
  | .nan _ => "nan"
  | .infinite negative => if negative then "-inf" else "inf"
  | .finite negative m e =>
    let magnitude := if m = 0 then "0" ++ layout.wholeFraction else layout.write (decimal m e)
    if negative then "-" ++ magnitude else magnitude

/-- The plain text: the fewest digits that read back. -/
def text (x : Binary64) : String := x.textWith .plain shortest

/-- The brief text: at most six significant digits. -/
def briefText (x : Binary64) : String := x.textWith .brief sixDigits

end Binary64

end RecordQuery

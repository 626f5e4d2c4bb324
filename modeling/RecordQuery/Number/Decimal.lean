import RecordQuery.Number.Binary64

/-!
# Decimals and binary64 numbers

A decimal is a coefficient with a power of ten. Reading takes a decimal to the nearest binary64
number. Writing goes two ways: the shortest decimal that reads back as the number, of those the
nearest one, or the decimal rounded to a count of significant digits.
-/

namespace RecordQuery

/-- The decimal coefficient · 10^exponent. -/
structure Decimal where
  coefficient : Nat
  exponent : Int
  deriving DecidableEq, Repr, Inhabited

namespace Decimal

/-- How many decimal digits a natural has; zero has none. -/
def digitCount (n : Nat) : Nat :=
  if n = 0 then 0 else (Nat.toDigits 10 n).length

/-- The ratio num / den divided by 10^e, as a ratio of naturals. -/
def scaleDown (num den : Nat) (e : Int) : Nat × Nat :=
  if 0 ≤ e then (num, den * Nat.pow 10 e.toNat) else (num * Nat.pow 10 (-e).toNat, den)

/-- The exponent of the leading decimal digit of the positive ratio num / den. -/
def leadingExponent (num den : Nat) : Int :=
  if den ≤ num then (digitCount (num / den) : Int) - 1
  else -(digitCount ((den + num - 1) / num - 1) : Int)

/-- The decimal without the zeros that end its coefficient; `fuel` bounds their number. -/
def stripZeros : Nat → Decimal → Decimal
  | 0, d => d
  | fuel + 1, d =>
    if d.coefficient ≠ 0 ∧ d.coefficient % 10 = 0 then
      stripZeros fuel ⟨d.coefficient / 10, d.exponent + 1⟩
    else d

/-- The decimal without the zeros that end its coefficient. -/
def normalize (d : Decimal) : Decimal :=
  stripZeros (digitCount d.coefficient) d

/-- The positive ratio num / den to `count` significant digits, a half going to the even digit. -/
def ofRatio (count num den : Nat) : Decimal :=
  let e := leadingExponent num den - (count : Int) + 1
  let (n, d) := scaleDown num den e
  let rounded := Binary64.roundHalfEven n d
  if rounded = Nat.pow 10 count then ⟨Nat.pow 10 (count - 1), e + 1⟩ else ⟨rounded, e⟩

end Decimal

namespace Binary64

/-- Decimals whose leading digit stands beyond this exponent are infinite or zero as binary64. -/
def decimalHorizon : Int := 400

/-- The binary64 number nearest to a decimal. -/
def ofDecimal (negative : Bool) (d : Decimal) : Binary64 :=
  let magnitude := (Decimal.digitCount d.coefficient : Int) + d.exponent
  if d.coefficient = 0 ∨ magnitude < -decimalHorizon then zero negative
  else if decimalHorizon < magnitude then .infinite negative
  else if 0 ≤ d.exponent then ofRatio negative (d.coefficient * Nat.pow 10 d.exponent.toNat) 1
  else ofRatio negative d.coefficient (Nat.pow 10 (-d.exponent).toNat)

/-- The reals that round to m · 2^e, in units of 2^(e-2): the two ends, and whether the ends
themselves belong, which they do for an even mantissa. -/
def roundingInterval (m : Nat) (e : Int) : Nat × Nat × Bool :=
  let below := if m = Nat.pow 2 52 ∧ leastExponent < e then 1 else 2
  (4 * m - below, 4 * m + 2, m % 2 == 0)

/-- Whether the natural c counted in units of 10^p / 2^(e-2) lies in the rounding interval. -/
def readsBack (m : Nat) (e : Int) (c : Nat) (p : Int) : Bool :=
  let (low, high, closed) := roundingInterval m e
  let tens := if 0 ≤ p then (Nat.pow 10 p.toNat, 1) else (1, Nat.pow 10 (-p).toNat)
  let twos := magnitudeRatio 1 (e - 2)
  let value := c * tens.1 * twos.2
  let unit := tens.2 * twos.1
  if closed then low * unit ≤ value && value ≤ high * unit
  else low * unit < value && value < high * unit

/-- Of the two neighbours of m · 2^e on the grid of `count` digits, the nearest that reads back. -/
def shortestAt? (m : Nat) (e : Int) (count : Nat) : Option Decimal :=
  let (num, den) := magnitudeRatio m e
  let p := Decimal.leadingExponent num den - (count : Int) + 1
  let (n, d) := Decimal.scaleDown num den p
  let floor := n / d
  let nearest := roundHalfEven n d
  let other := if nearest = floor then floor + 1 else floor
  if readsBack m e nearest p then some ⟨nearest, p⟩
  else if readsBack m e other p then some ⟨other, p⟩
  else none

/-- The shortest decimal that reads back as m · 2^e, for a positive mantissa: 17 digits suffice. -/
def shortest (m : Nat) (e : Int) : Decimal :=
  let counts := (List.range 17).map (· + 1)
  let (num, den) := magnitudeRatio m e
  ((counts.findSome? (shortestAt? m e)).getD (Decimal.ofRatio 17 num den)).normalize

/-- m · 2^e to six significant digits, without ending zeros, for a positive mantissa. -/
def sixDigits (m : Nat) (e : Int) : Decimal :=
  let (num, den) := magnitudeRatio m e
  (Decimal.ofRatio 6 num den).normalize

end Binary64

end RecordQuery

/-!
# Binary64 numbers

A binary64 number is kept as data: not-a-number with its payload, an infinity, or a sign with a
mantissa and a power of two. Nothing here is rounded by a machine: a ratio of naturals is brought to the nearest
representable number in exact arithmetic, a half going to the even mantissa.
-/

namespace RecordQuery

/-- A binary64 number; `finite negative m e` stands for m · 2^e, negated when `negative` holds. The
payload of not-a-number has no part in arithmetic; it only tells one from another. -/
inductive Binary64 where
  | nan (payload : Nat)
  | infinite (negative : Bool)
  | finite (negative : Bool) (mantissa : Nat) (exponent : Int)
  deriving DecidableEq, Repr, Inhabited

namespace Binary64

/-- The least exponent of a mantissa, that of the numbers next to zero. -/
def leastExponent : Int := -1074

/-- The greatest exponent of a mantissa. -/
def greatestExponent : Int := 971

/-- A mantissa has at most 53 bits. -/
def mantissaLimit : Nat := Nat.pow 2 53

/-- Zero of either sign. -/
def zero (negative : Bool) : Binary64 := .finite negative 0 leastExponent

/-- The quotient rounded to the nearest natural, a half going to the even one. -/
def roundHalfEven (num den : Nat) : Nat :=
  let quotient := num / den
  let twice := 2 * (num % den)
  if twice < den then quotient
  else if den < twice then quotient + 1
  else quotient + quotient % 2

/-- The ratio num / den divided by 2^e, as a ratio of naturals. -/
def scaleDown (num den : Nat) (e : Int) : Nat × Nat :=
  if 0 ≤ e then (num, den * Nat.pow 2 e.toNat) else (num * Nat.pow 2 (-e).toNat, den)

/-- The exponent at which the ratio num / den has a mantissa of 53 bits, or the least exponent. -/
def exponentFor (num den : Nat) : Int :=
  let guess := max leastExponent ((num.log2 : Int) - (den.log2 : Int) - 52)
  let (n, d) := scaleDown num den guess
  if n < Nat.pow 2 52 * d ∧ leastExponent < guess then guess - 1 else guess

/-- The binary64 number nearest to num / den; past the greatest finite one it is infinite. -/
def ofRatio (negative : Bool) (num den : Nat) : Binary64 :=
  if num = 0 then zero negative
  else
    let e := exponentFor num den
    let (n, d) := scaleDown num den e
    let rounded := roundHalfEven n d
    let (m, e) := if rounded = mantissaLimit then (Nat.pow 2 52, e + 1) else (rounded, e)
    if greatestExponent < e then .infinite negative else .finite negative m e

/-- The magnitude m · 2^e as a ratio of naturals. -/
def magnitudeRatio (m : Nat) (e : Int) : Nat × Nat :=
  if 0 ≤ e then (m * Nat.pow 2 e.toNat, 1) else (m, Nat.pow 2 (-e).toNat)

/-- The integer part of m · 2^e, cut toward zero. -/
def truncate (negative : Bool) (m : Nat) (e : Int) : Int :=
  let (num, den) := magnitudeRatio m e
  if negative then -((num / den : Nat) : Int) else ((num / den : Nat) : Int)

/-- Whether the number is zero of either sign. -/
def isZero : Binary64 → Bool
  | .finite _ 0 _ => true
  | _ => false

end Binary64

end RecordQuery

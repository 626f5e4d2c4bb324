import Mathlib
import RecordQuery.Text.Digit

/-!
# Decimal digits

A natural is written in the ten digits of ASCII and read back from them (`Text.digitsValue_toDigits`).
An integer has a sign before the digits of its magnitude (`Text.toList_repr`).
-/

namespace RecordQuery.Text

/-- The sign in front of a number. -/
def sign (negative : Bool) : List Char := if negative then ['-'] else []

theorem digitValue?_of_isDigit {c : Char} (digit : c.isDigit = true) :
    digitValue? c = some (c.toNat - '0'.toNat) :=
  if_pos (Char.isDigit_iff_toNat.mp digit)

theorem isDigit_of_mem {n : Nat} {c : Char} (member : c ∈ Nat.toDigits 10 n) : c.isDigit = true :=
  Nat.isDigit_of_mem_toDigits (by decide) (Nat.le_refl 10) member

theorem digitsValue_toDigits (n : Nat) : digitsValue (Nat.toDigits 10 n) = n := by
  have same : digitsValue (Nat.toDigits 10 n) = Nat.ofDigitChars 10 (Nat.toDigits 10 n) 0 := by
    rw [digitsValue, Nat.ofDigitChars_eq_foldl]
    refine List.foldl_ext _ _ _ fun value c member => ?_
    rw [digitValue?_of_isDigit (isDigit_of_mem member)]
    rfl
  rw [same, Nat.ofDigitChars_ten_toDigits]

/-- An integer is written in decimal digits behind its sign. -/
theorem toList_repr (n : Int) :
    n.repr.toList = sign (decide (n < 0)) ++ Nat.toDigits 10 n.natAbs := by
  rw [Int.repr_eq_if]
  by_cases negative : n < 0
  · have size : (-n).toNat = n.natAbs := by omega
    rw [if_neg (not_le.mpr negative), decide_eq_true negative, String.toList_append, size,
      Nat.repr_eq_ofList_toDigits, String.toList_ofList, String.toList_ofList]
    rfl
  · have size : n.toNat = n.natAbs := by omega
    rw [if_pos (not_lt.mp negative), decide_eq_false negative, size, Nat.repr_eq_ofList_toDigits,
      String.toList_ofList]
    rfl

end RecordQuery.Text

import Mathlib
import RecordQuery.Proofs.Number.Line

/-!
# Numbers cut toward zero

Every number but the infinities and not-a-number stands for an exact rational number
(`Numeric.finite?`). The integer part of a binary64 number, taken by dividing naturals, is that
rational number cut toward zero (`Binary64.truncate_eq`).
-/

namespace RecordQuery

/-- A rational number cut toward zero. -/
def towardZero (q : ℚ) : Int := if 0 ≤ q then ⌊q⌋ else ⌈q⌉

/-- The exact value of a finite number. -/
def Numeric.finite? (n : Numeric) : Option ℚ :=
  match n.place? with
  | some (.finite significand exponent) => some (Place.ratio significand exponent)
  | _ => none

theorem towardZero_intCast (n : Int) : towardZero n = n := by
  unfold towardZero
  split
  · exact Int.floor_intCast n
  · exact Int.ceil_intCast n

theorem towardZero_neg (q : ℚ) : towardZero (-q) = -towardZero q := by
  unfold towardZero
  rcases lt_trichotomy q 0 with negative | rfl | positive
  · rw [if_pos (neg_nonneg.mpr negative.le), if_neg (not_le.mpr negative), Int.floor_neg]
  · simp
  · rw [if_neg (not_le.mpr (neg_lt_zero.mpr positive)), if_pos positive.le, Int.ceil_neg]

namespace Binary64

theorem ratio_eq_magnitudeRatio (m : Nat) (e : Int) :
    Place.ratio m e = ((magnitudeRatio m e).1 : ℚ) / (magnitudeRatio m e).2 := by
  unfold Place.ratio magnitudeRatio
  split
  · rename_i up
    obtain ⟨k, rfl⟩ := Int.eq_ofNat_of_zero_le up
    simp [Nat.pow_eq]
  · rename_i down
    obtain ⟨k, flipped⟩ := Int.eq_ofNat_of_zero_le (show 0 ≤ -e by omega)
    obtain rfl : e = -k := by omega
    simp [Nat.pow_eq, div_eq_mul_inv]

theorem truncate_eq (negative : Bool) (m : Nat) (e : Int) :
    truncate negative m e = towardZero (Place.ratio (if negative then -(m : Int) else m) e) := by
  have magnitude : towardZero (Place.ratio m e) =
      (((magnitudeRatio m e).1 / (magnitudeRatio m e).2 : Nat) : Int) := by
    rw [ratio_eq_magnitudeRatio, towardZero, if_pos (by positivity),
      Rat.floor_natCast_div_natCast]
    rfl
  have flipped : Place.ratio (-(m : Int)) e = -Place.ratio m e := by
    unfold Place.ratio
    rw [Int.cast_neg, neg_mul]
  unfold truncate
  cases negative with
  | true =>
    rw [if_pos rfl, flipped, towardZero_neg, magnitude]
    rfl
  | false => exact magnitude.symm

end Binary64

end RecordQuery

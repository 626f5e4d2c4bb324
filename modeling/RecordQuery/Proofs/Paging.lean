import RecordQuery.Paging

/-!
# Slices

A whole count cuts a list as the end of a slice does: a position past the end stands for the end, and
a negative one counts from the end. The clamping of counts does not show. A value that is no number
cuts nothing.
-/

namespace RecordQuery

variable {α : Type}

/-- The position in a list of the given length that an end of a slice stands for, counted from the
end if negative. -/
def slicePosition (length : Nat) (n : Int) : Nat :=
  if 0 ≤ n then n.toNat else (length + n).toNat

/-- The items from a position on. -/
def sliceFrom (n : Int) (items : List α) : List α :=
  items.drop (slicePosition items.length n)

/-- The items up to a position. -/
def sliceTo (n : Int) (items : List α) : List α :=
  items.take (slicePosition items.length n)

/-- Clamping a count to the length does not move its position, but for positions past the end. -/
theorem cutPosition_clampTo (length : Nat) (n : Int) :
    cutPosition length ((Numeric.int n).clampTo length) = min (slicePosition length n) length := by
  unfold cutPosition Numeric.clampTo slicePosition
  dsimp only
  split <;> split <;> omega

theorem skip_int (n : Int) (items : List α) :
    (Numeric.int n).skip items = sliceFrom n items := by
  unfold Numeric.skip sliceFrom
  rw [cutPosition_clampTo]
  exact List.drop_eq_drop_iff.mpr (by omega)

theorem limit_int (n : Int) (items : List α) :
    (Numeric.int n).limit items = sliceTo n items := by
  unfold Numeric.limit sliceTo
  rw [cutPosition_clampTo]
  exact List.take_eq_take_iff.mpr (by omega)

namespace Value

theorem skipIfNumber_of_not_number {v : Value} (other : v.isNumber = false) (items : List α) :
    v.skipIfNumber items = items := by
  unfold skipIfNumber
  rw [Option.isSome_eq_false_iff.trans Option.isNone_iff_eq_none |>.mp other]

theorem limitIfNumber_of_not_number {v : Value} (other : v.isNumber = false) (items : List α) :
    v.limitIfNumber items = items := by
  unfold limitIfNumber
  rw [Option.isSome_eq_false_iff.trans Option.isNone_iff_eq_none |>.mp other]

theorem skipIfNumber_nil (v : Value) : v.skipIfNumber ([] : List α) = [] := by
  unfold skipIfNumber
  split
  · exact List.drop_nil
  · rfl

theorem limitIfNumber_nil (v : Value) : v.limitIfNumber ([] : List α) = [] := by
  unfold limitIfNumber
  split
  · exact List.take_nil
  · rfl

end Value

end RecordQuery

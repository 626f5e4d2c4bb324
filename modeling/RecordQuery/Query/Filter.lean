import RecordQuery.Query.Basic

/-!
# Structured filters

A filter's mapping may ask for clauses, an order, a count to skip and a limit, which apply in this
turn. Every key without such a meaning is a field that has to equal the value given.
-/

namespace RecordQuery.Filter

/-- The keys that do not name a field. -/
def reservedKeys : List Value :=
  [.str "skip", .str "offset", .str "where", .str "limit", .str "orderBy", .str "sort"]

/-- What the filter gives under a name, or null. -/
def given (filter : Entries Value) (name : String) : Value :=
  .ofOption (filter.find? (.str name))

/-- What the filter asks of each field: its clauses, then the fields given beside them. -/
def whereEntries (filter : Entries Value) : Entries Value :=
  let nested := match given filter "where" with
    | .map entries => entries
    | _ => []
  filter.foldl (fun asked (key, value) =>
    if key.memberOf reservedKeys || asked.hasKey key then asked
    else asked.put key (.map [(.str "==", value)])) nested

/-- The order that the filter asks for. -/
def sortKeys (filter : Entries Value) : List SortKey :=
  let orderBy := given filter "orderBy"
  SortKey.ofValue (if orderBy.isTruthy then orderBy else given filter "sort")

/-- The count that the filter asks to skip. -/
def skipCount (filter : Entries Value) : Value :=
  let skip := given filter "skip"
  if skip.isNumber then skip else given filter "offset"

/-- The records that a filter leaves, in their order. -/
def apply (filter : Entries Value) (records : List Value) : List Value :=
  let clauses := Clause.ofEntries (whereEntries filter)
  let kept := records.filter fun record => Clause.passes record clauses
  let sorted := SortKey.sort (sortKeys filter) kept
  (given filter "limit").limitIfNumber ((skipCount filter).skipIfNumber sorted)

end RecordQuery.Filter

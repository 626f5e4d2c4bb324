import RecordQuery.Path
import RecordQuery.Text.Case
import RecordQuery.Value.Order
import RecordQuery.Value.Text

/-!
# Sorting by fields

An order specification lists fields with directions. Records are compared by each field in turn,
texts in upper case; values without order tie. Sorting is stable.
-/

namespace RecordQuery

/-- The direction that a value asks for: descending for the word DESC in any case. -/
def Direction.ofValue : Value → Direction
  | .direction d => d
  | .str s => if Text.upper s = "DESC" then .descending else .ascending
  | _ => .ascending

namespace SortKey

/-- The sort key that one item of an order specification asks for, if any. -/
def ofItem? : Value → Option SortKey
  | .sortKey key => some key
  | .str field => some ⟨field, .ascending⟩
  | .list (field :: rest) | .tuple (field :: rest) =>
    some ⟨field.text, Direction.ofValue (rest.headD .null)⟩
  | _ => none

/-- The sort keys of an order specification: a single field, or a sequence of items. -/
def ofValue : Value → List SortKey
  | .str field => [⟨field, .ascending⟩]
  | .list items | .tuple items => items.filterMap ofItem?
  | _ => []

/-- A value as it is compared: texts without regard to case. -/
def fold : Value → Value
  | .str s => .str (Text.upper s)
  | v => v

/-- The order of two values; those without order tie. -/
def compareValues (a b : Value) : Ordering :=
  ((fold a).compare? (fold b)).getD .eq

/-- The order of two records by one sort key. -/
def compareBy (key : SortKey) (a b : Value) : Ordering :=
  let path := Path.ofString key.field
  let result := compareValues (a.lookup path) (b.lookup path)
  match key.direction with
  | .ascending => result
  | .descending => result.swap

/-- The order of two records: the first sort key that tells them apart decides. -/
def compare : List SortKey → Value → Value → Ordering
  | [], _, _ => .eq
  | key :: keys, a, b => (key.compareBy a b).then (compare keys a b)

/-- The records sorted, those that tie in their previous order. -/
def sort (keys : List SortKey) (records : List Value) : List Value :=
  records.mergeSort fun a b => (compare keys a b).isLE

end SortKey

end RecordQuery

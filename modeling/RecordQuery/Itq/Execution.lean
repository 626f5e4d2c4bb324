import RecordQuery.Itq.Reading
import RecordQuery.Query.Step

/-!
# Executing statements

A statement is a query: its retrieval, then its filter. The records become rows, mappings as they
are, and the columns are the keys of all rows in the order in which they first come. A retrieval
from an index that the collection lacks gives an empty result with a message.
-/

namespace RecordQuery.Itq

/-- The result of a statement. -/
structure Result where
  columns : List Value
  rows : List (Entries Value)
  message : Option String
  deriving Repr, Inhabited

namespace Result

/-- The row that a record becomes: the entries of a mapping, the attributes of an object, the parts
of a sort key, and any other record under one name. -/
def rowOf : Value → Entries Value
  | .map entries => entries
  | .object _ attributes => attributes.map fun (name, v) => (.str name, v)
  | .sortKey key => [(.str "field", .str key.field), (.str "direction", .direction key.direction)]
  | v => [(.str "value", v)]

/-- The columns with those that a row brings besides. -/
def addColumns (columns : List Value) (row : Entries Value) : List Value :=
  row.foldl (fun columns entry =>
    if entry.1.memberOf columns then columns else columns ++ [entry.1]) columns

/-- The keys of all rows, each where it first comes. -/
def columnsOf (rows : List (Entries Value)) : List Value := rows.foldl addColumns []

/-- The result of records. -/
def ofRecords (records : List Value) : Result :=
  let rows := records.map rowOf
  ⟨columnsOf rows, rows, none⟩

end Result

namespace Statement

/-- The query after the retrieval of a statement. -/
def retrieve (collection : Collection) (statement : Statement) : Except Error Query :=
  let options := Value.map statement.retrieval.options
  match statement.retrieval with
  | .scan => .ok .empty
  | .get key _ => Query.empty.get collection key options []
  | .getAll keys _ => Query.empty.getAll collection (keys ++ [options]) []
  | .between left right _ _ => Query.empty.between collection left right options []

/-- Executes a statement over a collection. -/
def execute (collection : Collection) (statement : Statement) :
    Except Error Result :=
  match statement.retrieve collection with
  | .ok query =>
    .ok (.ofRecords (Filter.apply statement.filterEntries (query.current collection)))
  | .error (.unknownIndex name) =>
    .ok ⟨[], [], some (Error.unknownIndex name).message⟩
  | .error e => .error e

end Statement

end RecordQuery.Itq

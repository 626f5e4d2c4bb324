import RecordQuery.Clause
import RecordQuery.Collection
import RecordQuery.Sorting

/-!
# Queries

A query starts empty. One retrieval populates it with records: those of a key, of several keys, of a
range, or all of them. What follows works on these records, and running the query hands them out and
leaves it as it started. A query that works on records before any retrieval takes all of them.
-/

namespace RecordQuery

/-- Whether a query has retrieved its records yet. -/
inductive Query.State where
  | empty
  | populated
  deriving DecidableEq, Repr, Inhabited

/-- A query keeps a list of records, which counts once it is populated. -/
structure Query where
  state : Query.State
  records : List Value

namespace Query

/-- The query before any retrieval. -/
def empty : Query := ⟨.empty, []⟩

/-- The query that holds records. -/
def holding (records : List Value) : Query := ⟨.populated, records⟩

/-- The records retrieved, or none before any retrieval. -/
def records? (query : Query) : Option (List Value) :=
  match query.state with
  | .empty => none
  | .populated => some query.records

/-- The records to work on: those retrieved, or all of the collection. -/
def current (collection : Collection) (query : Query) : List Value :=
  query.records?.getD collection.primary.toList

/-- The query after making sure that it holds records. -/
def retrieved (collection : Collection) (query : Query) : Query :=
  holding (query.current collection)

/-- Refuses a retrieval if the query holds records. -/
def checkEmpty (query : Query) : Except Error Unit :=
  match query.state with
  | .empty => .ok ()
  | .populated => .error .alreadyRetrieved

/-- Retrieves the records of a key; a key without components retrieves all records. -/
def get (collection : Collection) (query : Query) (key options : Value) (named : Entries Value) :
    Except Error Query := do
  query.checkEmpty
  if key.keyItems.isEmpty then return query.retrieved collection
  let index ← collection.select (← Options.ofValue options named)
  return holding (index.get (.list key.keyItems))

/-- The keys of a list of arguments, and the options if the last one is a mapping. -/
def splitOptions (arguments : List Value) : List Value × Value :=
  match arguments.getLast? with
  | some (.map entries) => (arguments.dropLast, .map entries)
  | _ => (arguments, .null)

/-- Retrieves the records of several keys, one after the other; no key retrieves all records. -/
def getAll (collection : Collection) (query : Query) (arguments : List Value)
    (named : Entries Value) : Except Error Query := do
  query.checkEmpty
  let (keys, options) := splitOptions arguments
  if keys.isEmpty then return query.retrieved collection
  let index ← collection.select (← Options.ofValue options named)
  return holding (keys.flatMap index.get)

/-- Retrieves the records between two boundaries. -/
def between (collection : Collection) (query : Query) (left right options : Value)
    (named : Entries Value) : Except Error Query := do
  query.checkEmpty
  let options ← Options.ofValue options named
  let index ← collection.select options
  return holding (index.between left right options)

/-- The count that a value gives to an operation. -/
def countOf (operation : String) (count : Value) : Except Error Numeric :=
  match count.number? with
  | some n => .ok n
  | none => .error (.countNotNumber operation count.kindName)

/-- Drops the first records. -/
def skip (collection : Collection) (query : Query) (count : Value) : Except Error Query :=
  (countOf "skip" count).map fun n => holding (n.skip (query.current collection))

/-- Keeps the first records at most. -/
def limit (collection : Collection) (query : Query) (count : Value) : Except Error Query :=
  (countOf "limit" count).map fun n => holding (n.limit (query.current collection))

end Query

end RecordQuery

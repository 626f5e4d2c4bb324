import RecordQuery.Query.Step

/-!
# Sessions

A session is a collection with any number of queries over it, told apart by number. Its history is a
list of steps, each on the collection or on one of the queries. A step on the collection leaves the
queries as they are, and a step on a query leaves the collection and all other queries as they are.
A step on the collection that raises may leave some of its records behind.
-/

namespace RecordQuery

/-- What can be done to a collection. -/
inductive Collection.Step where
  | addFrom (code : CallCode) (supply : Supply)
  | createIndexFrom (code : CallCode) (name fields : Value)

/-- The records that a value yields are added; they are data. -/
def Collection.Step.add (records : Value) : Collection.Step := .addFrom .quiet (.ofValue records)

/-- An index over records that are data is created. -/
def Collection.Step.createIndex (name fields : Value) : Collection.Step :=
  .createIndexFrom .quiet name fields

/-- The collection after a step, and what raised. -/
def Collection.perform (collection : Collection) : Collection.Step → Collection × Option Error
  | .addFrom code supply => collection.load code supply
  | .createIndexFrom code name fields => match collection.createIndexFrom code name fields with
    | .ok indexed => (indexed, none)
    | .error e => (collection, some e)

/-- A collection and the queries over it. -/
structure Session where
  collection : Collection
  /-- The queries by number; one that is not listed is empty. -/
  queries : List (Int × Query)

namespace Session

/-- One step of a history. -/
inductive Step where
  | onCollection (step : Collection.Step)
  | onQuery (number : Int) (step : Query.Step)

/-- What a step answers. -/
inductive Answer where
  | ofCollection (failure? : Option Error)
  | ofQuery (outcome : Query.Outcome)

/-- A session without queries. -/
def start (collection : Collection) : Session := ⟨collection, []⟩

/-- The query of a number. -/
def query (session : Session) (number : Int) : Query :=
  (session.queries.lookup number).getD .empty

/-- The session with a query put in place of the one of its number. -/
def setQuery (session : Session) (number : Int) (query : Query) : Session :=
  { session with queries := (number, query) :: session.queries }

/-- Performs a step on the collection. -/
def performOnCollection (session : Session) (step : Collection.Step) : Session × Option Error :=
  let (collection, failure?) := session.collection.perform step
  ({ session with collection }, failure?)

/-- Performs a step on a query. -/
def performOnQuery (session : Session) (number : Int) (step : Query.Step) :
    Session × Query.Outcome :=
  let outcome := (session.query number).perform session.collection step
  (session.setQuery number outcome.query, outcome)

/-- Performs a step. -/
def perform (session : Session) : Step → Session × Answer
  | .onCollection step =>
    let (next, failure?) := session.performOnCollection step
    (next, .ofCollection failure?)
  | .onQuery number step =>
    let (next, outcome) := session.performOnQuery number step
    (next, .ofQuery outcome)

/-- Performs the steps of a history one after the other. -/
def run (session : Session) : List Step → Session × List Answer
  | [] => (session, [])
  | step :: rest =>
    let (next, answer) := session.perform step
    let (last, answers) := next.run rest
    (last, answer :: answers)

end Session

end RecordQuery

import RecordQuery.Query.Filter

/-!
# Steps of a query

Everything that can be asked of a query is a step. A step leaves a query behind even if it fails:
steps that work on records retrieve them first, and a failing function stops the step after that.
Only a context that cannot be bound stops a step before the records are retrieved.
-/

namespace RecordQuery

/-- A function supplied to a step; it may fail. -/
abbrev Callback := Value → Except Error Value

/-- A function that takes a context as well, bound to the context unless that is null. -/
def Callback.bind (function : Option Value → Callback) (context : Value) : Callback :=
  match context with
  | .null => function none
  | context => function (some context)

/-- A value in place of a function fails at its first call. -/
def Callback.ofValue (v : Value) : Callback := fun _ => .error (.notCallable v.kindName)

/-- Applies a function to records up to its first failure: the values it gave, and the failure. -/
def Callback.callAll (function : Callback) : List Value → List Value × Option Error
  | [] => ([], none)
  | record :: rest => match function record with
    | .error e => ([], some e)
    | .ok v =>
      let (values, failure) := callAll function rest
      (v :: values, failure)

/-- What a step is given to apply to records: a function, which takes a context if there is one, or
a value in its place. -/
inductive Query.Operand where
  | function (f : Option Value → Callback)
  | value (v : Value)

/-- What is called on each record once a context is bound. Only a function can be bound to a context;
under the null context a value is called as it is. -/
def Query.Operand.bind : Query.Operand → Value → Except Error Callback
  | .function f, context => .ok (Callback.bind f context)
  | .value v, .null => .ok (.ofValue v)
  | .value _, _ => .error .contextNotBindable

/-- What can be asked of a query. -/
inductive Query.Step where
  /-- The records as they are. -/
  | data
  /-- The records, retrieved if need be. -/
  | getData
  | get (key options : Value) (named : Entries Value)
  | getAll (arguments : List Value) (named : Entries Value)
  | between (left right options : Value) (named : Entries Value)
  | filter (operand : Query.Operand) (context : Value)
  | skip (count : Value)
  | limit (count : Value)
  | forEach (operand : Query.Operand) (context : Value)
  | map (operand : Query.Operand) (context : Value)
  /-- Hands out the records and starts afresh. -/
  | run

/-- What a step answers. -/
inductive Query.Answer where
  /-- The query itself, to be asked further. -/
  | self
  | value (v : Value)

/-- What a step leads to. -/
structure Query.Outcome where
  /-- The query after the step. -/
  query : Query
  answer : Except Error Query.Answer
  /-- What a supplied function gave, in the order of its calls. -/
  calls : List Value

namespace Query

/-- Records as a value, or null where there are none. -/
def recordsValue : Option (List Value) → Value
  | some records => .list records
  | none => .null

/-- The outcome of a step that either succeeds with a new query or fails and changes nothing. -/
def Outcome.ofResult (query : Query) : Except Error Query → Outcome
  | .ok next => ⟨next, .ok .self, []⟩
  | .error e => ⟨query, .error e, []⟩

/-- The outcome of calling a function on all records, given what becomes of them if all calls
succeed. -/
def Outcome.ofCalls (collection : Collection) (query : Query) (function : Callback)
    (next : List Value → List Value → List Value) : Outcome :=
  let records := query.current collection
  match function.callAll records with
  | (values, none) => ⟨holding (next records values), .ok .self, values⟩
  | (values, some e) => ⟨holding records, .error e, values⟩

/-- The outcome of binding an operand to a context and then calling it on all records; nothing is
retrieved if it cannot be bound. -/
def Outcome.ofOperand (collection : Collection) (query : Query) (operand : Operand)
    (context : Value) (next : List Value → List Value → List Value) : Outcome :=
  match operand.bind context with
  | .ok function => ofCalls collection query function next
  | .error e => ⟨query, .error e, []⟩

/-- The records for which the value at the same place counts as true. -/
def keepTruthy (records values : List Value) : List Value :=
  ((records.zip values).filter fun pair => pair.2.isTruthy).map (·.1)

/-- Filters by a mapping, by nothing, or by a function; any other value is refused. The context
matters to a function only. -/
def filterStep (collection : Collection) (query : Query) (context : Value) : Operand → Outcome
  | .function f => .ofCalls collection query (Callback.bind f context) keepTruthy
  | .value .null => ⟨holding (Filter.apply [] (query.current collection)), .ok .self, []⟩
  | .value (.map entries) =>
    ⟨holding (Filter.apply entries (query.current collection)), .ok .self, []⟩
  | .value v => ⟨query.retrieved collection, .error (.filterNotUsable v.kindName), []⟩

/-- Performs a step of a query over a collection. -/
def perform (collection : Collection) (query : Query) : Step → Outcome
  | .data => ⟨query, .ok (.value (recordsValue query.records?)), []⟩
  | .getData =>
    ⟨query.retrieved collection, .ok (.value (.list (query.current collection))), []⟩
  | .get key options named => .ofResult query (query.get collection key options named)
  | .getAll arguments named => .ofResult query (query.getAll collection arguments named)
  | .between left right options named =>
    .ofResult query (query.between collection left right options named)
  | .filter operand context => query.filterStep collection context operand
  | .skip count => .ofResult query (query.skip collection count)
  | .limit count => .ofResult query (query.limit collection count)
  | .forEach operand context =>
    .ofOperand collection query operand context fun records _ => records
  | .map operand context => .ofOperand collection query operand context fun _ values => values
  | .run => ⟨empty, .ok (.value (recordsValue query.records?)), []⟩

/-- The records that a fresh query hands out after one step. -/
def oneShot (collection : Collection) (step : Step) : Except Error Value :=
  let outcome := empty.perform collection step
  outcome.answer.map fun _ => recordsValue outcome.query.records?

end Query

end RecordQuery

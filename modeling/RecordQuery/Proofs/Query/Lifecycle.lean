import RecordQuery.Query.Step
import RecordQuery.Proofs.Outcome

/-!
# The life of a query

A step leaves a query as it is, populates it or, when the records are handed out, empties it
(`perform_query`). An empty query keeps no records behind (`hasNoResidue_performAll`), so what is done
before the records are handed out does not show in anything that is done afterwards (`lifecycle`).
-/

namespace RecordQuery.Query

variable {collection : Collection} {query : Query}

/-- Performs steps one after the other: the query after them, and the outcome of each. -/
def performAll (collection : Collection) (query : Query) : List Step → Query × List Outcome
  | [] => (query, [])
  | step :: rest =>
    let outcome := query.perform collection step
    let (last, outcomes) := outcome.query.performAll collection rest
    (last, outcome :: outcomes)

theorem performAll_append (collection : Collection) (query : Query) (steps later : List Step) :
    query.performAll collection (steps ++ later) =
      let first := query.performAll collection steps
      let second := first.1.performAll collection later
      (second.1, first.2 ++ second.2) := by
  induction steps generalizing query with
  | nil => rfl
  | cons step steps ih =>
    simp only [List.cons_append, performAll]
    rw [ih]

theorem records?_eq_none : query.records? = none ↔ query.state = .empty := by
  unfold records?
  cases query.state <;> simp

theorem records?_of_populated (populated : query.state = .populated) :
    query.records? = some query.records := by
  unfold records?
  rw [populated]

/-! ## What one step does -/

/-- An attempt at a new query populates it if it succeeds. -/
def Populates (attempt : Except Error Query) : Prop :=
  ∀ next, attempt = .ok next → next.state = .populated

theorem populates_holding (records : List Value) : Populates (.ok (holding records)) := by
  intro next held
  cases held
  rfl

theorem Populates.bind {α : Type} {first : Except Error α} {rest : α → Except Error Query}
    (each : ∀ a, Populates (rest a)) : Populates (first >>= rest) := by
  intro next succeeded
  obtain ⟨a, -, further⟩ := bind_eq_ok.mp succeeded
  exact each a next further

theorem Populates.ite {c : Prop} [Decidable c] {attempt other : Except Error Query}
    (left : Populates attempt) (right : Populates other) :
    Populates (if c then attempt else other) := by
  split
  · exact left
  · exact right

theorem populates_counted (attempt : Except Error Numeric) (cut : Numeric → List Value) :
    Populates (attempt.map fun n => holding (cut n)) := by
  cases attempt with
  | error e =>
    intro next failed
    cases failed
  | ok n => exact populates_holding (cut n)

theorem populates_get (collection : Collection) (query : Query) (key options : Value)
    (named : Entries Value) : Populates (query.get collection key options named) := by
  refine .bind fun _ => .ite ?_ ?_
  · exact populates_holding (query.current collection)
  · exact .bind fun _ => .bind fun index => populates_holding (index.get (.list key.keyItems))

theorem populates_getAll (collection : Collection) (query : Query) (arguments : List Value)
    (named : Entries Value) : Populates (query.getAll collection arguments named) := by
  refine .bind fun _ => .ite ?_ ?_
  · exact populates_holding (query.current collection)
  · refine .bind fun _ => .bind fun index => ?_
    exact populates_holding ((splitOptions arguments).1.flatMap index.get)

theorem populates_between (collection : Collection) (query : Query) (left right options : Value)
    (named : Entries Value) : Populates (query.between collection left right options named) :=
  .bind fun _ => .bind fun options => .bind fun index =>
    populates_holding (index.between left right options)

theorem ofResult_query {attempt : Except Error Query} (populates : Populates attempt) :
    (Outcome.ofResult query attempt).query = query ∨
      (Outcome.ofResult query attempt).query.state = .populated := by
  cases attempt with
  | error e => exact .inl rfl
  | ok next => exact .inr (populates next rfl)

theorem ofCalls_state (collection : Collection) (query : Query) (function : Callback)
    (next : List Value → List Value → List Value) :
    (Outcome.ofCalls collection query function next).query.state = .populated := by
  unfold Outcome.ofCalls
  dsimp only
  rcases function.callAll (query.current collection) with ⟨values, _ | e⟩
  · rfl
  · rfl

theorem ofOperand_query (collection : Collection) (query : Query) (operand : Operand)
    (context : Value) (next : List Value → List Value → List Value) :
    (Outcome.ofOperand collection query operand context next).query = query ∨
      (Outcome.ofOperand collection query operand context next).query.state = .populated := by
  unfold Outcome.ofOperand
  cases operand.bind context with
  | error e => exact .inl rfl
  | ok function => exact .inr (ofCalls_state collection query function next)

theorem filterStep_state (collection : Collection) (query : Query) (context : Value)
    (operand : Operand) : (query.filterStep collection context operand).query.state = .populated := by
  cases operand with
  | function f => exact ofCalls_state collection query _ _
  | value v => cases v <;> rfl

/-- A step leaves the query as it is, populates it or empties it. -/
theorem perform_query (collection : Collection) (query : Query) (step : Step) :
    (query.perform collection step).query = query ∨
      (query.perform collection step).query.state = .populated ∨
      (query.perform collection step).query = empty := by
  cases step with
  | data => exact .inl rfl
  | getData => exact .inr (.inl rfl)
  | get key options named =>
    exact (ofResult_query (populates_get collection query key options named)).imp_right .inl
  | getAll arguments named =>
    exact (ofResult_query (populates_getAll collection query arguments named)).imp_right .inl
  | between left right options named =>
    exact (ofResult_query
      (populates_between collection query left right options named)).imp_right .inl
  | filter operand context => exact .inr (.inl (filterStep_state collection query context operand))
  | skip count => exact (ofResult_query (populates_counted _ _)).imp_right .inl
  | limit count => exact (ofResult_query (populates_counted _ _)).imp_right .inl
  | forEach operand context =>
    exact (ofOperand_query collection query operand context _).imp_right .inl
  | map operand context =>
    exact (ofOperand_query collection query operand context _).imp_right .inl
  | run => exact .inr (.inr rfl)

/-! ## Runs of steps -/

/-- An empty query keeps no records. -/
def HasNoResidue (query : Query) : Prop := query.state = .empty → query.records = []

theorem hasNoResidue_perform (clean : query.HasNoResidue) (collection : Collection) (step : Step) :
    (query.perform collection step).query.HasNoResidue := by
  rcases perform_query collection query step with same | populated | emptied
  · rw [same]
    exact clean
  · intro blank
    rw [populated] at blank
    cases blank
  · rw [emptied]
    intro _
    rfl

theorem hasNoResidue_performAll (clean : query.HasNoResidue) (collection : Collection)
    (steps : List Step) : (query.performAll collection steps).1.HasNoResidue := by
  induction steps generalizing query with
  | nil => exact clean
  | cons step steps ih => exact ih (hasNoResidue_perform clean collection step)

/-- Whether the step retrieves records from an index of its choice. -/
def Step.isRetrieval : Step → Bool
  | .get .. | .getAll .. | .between .. => true
  | _ => false

/-- A populated query refuses every retrieval before it looks at the arguments. -/
theorem perform_retrieval (populated : query.state = .populated) {step : Step}
    (retrieval : step.isRetrieval = true) (collection : Collection) :
    query.perform collection step = ⟨query, .error .alreadyRetrieved, []⟩ := by
  have refused : query.checkEmpty = .error .alreadyRetrieved := by
    unfold checkEmpty
    rw [populated]
  cases step with
  | get key options named =>
    unfold perform get
    rw [refused]
    rfl
  | getAll arguments named =>
    unfold perform getAll
    rw [refused]
    rfl
  | between left right options named =>
    unfold perform between
    rw [refused]
    rfl
  | _ => cases retrieval

/-- **The life of a query.** After any steps, failing ones included, a query has data just when it is
populated, and an empty one keeps no records. A populated query refuses every retrieval, whatever its
arguments, and stays as it is. Handing the records out answers the data and empties the query, so
whatever is done afterwards has the outcomes that it has on a new query. -/
theorem lifecycle (collection : Collection) (steps : List Step) :
    let (query, outcomes) := empty.performAll collection steps
    (query.records? = none ↔ query.state = .empty) ∧
      (query.state = .empty → query.records = []) ∧
      (query.state = .populated → query.records? = some query.records ∧
        ∀ step : Step, step.isRetrieval = true →
          query.perform collection step = ⟨query, .error .alreadyRetrieved, []⟩) ∧
      query.perform collection .run = ⟨empty, .ok (.value (recordsValue query.records?)), []⟩ ∧
      ∀ later,
        let (last, further) := empty.performAll collection later
        empty.performAll collection (steps ++ .run :: later) =
          (last, outcomes ++ query.perform collection .run :: further) := by
  dsimp only
  have clean : empty.HasNoResidue := fun _ => rfl
  refine ⟨records?_eq_none, hasNoResidue_performAll clean collection steps, ?_, rfl, ?_⟩
  · intro populated
    refine ⟨records?_of_populated populated, fun step retrieval => ?_⟩
    exact perform_retrieval populated retrieval collection
  · intro later
    rw [performAll_append]
    rfl

end RecordQuery.Query

import RecordQuery.Session

/-!
# Queries side by side

The queries of a session work on one collection, and their steps come in any order, with additions to
the collection and new indexes in between. A query changes by its own steps only (`query_run`), and a
session in which the others' steps are left out looks the same to it (`isolation`).
-/

namespace RecordQuery.Session

variable {session alone : Session} {number : Int} {step : Step}

/-! ## What a step changes -/

/-- The number of the query that a step is on, if it is on a query. -/
def Step.query? : Step → Option Int
  | .onCollection _ => none
  | .onQuery number _ => some number

/-- Whether a step is on the collection or on the query of a number. -/
def Step.concerns (number : Int) (step : Step) : Bool := step.query?.all (· == number)

theorem query_setQuery_self (session : Session) (number : Int) (query : Query) :
    (session.setQuery number query).query number = query := by
  unfold Session.query setQuery
  rw [List.lookup_cons_self, Option.getD_some]

theorem query_setQuery_of_ne {other : Int} (apart : number ≠ other) (session : Session)
    (query : Query) : (session.setQuery other query).query number = session.query number := by
  unfold Session.query setQuery
  rw [List.lookup_cons, beq_false_of_ne apart]

/-- Whatever becomes of a step on the collection, the queries stay as they are. -/
theorem query_performOnCollection (session : Session) (step : Collection.Step) (number : Int) :
    (session.performOnCollection step).1.query number = session.query number := rfl

/-- A step leaves a query alone unless it is on that query. -/
theorem query_perform (foreign : step.query? ≠ some number) (session : Session) :
    (session.perform step).1.query number = session.query number := by
  cases step with
  | onCollection step => exact query_performOnCollection session step number
  | onQuery other step =>
    have apart : number ≠ other := fun same => foreign (congrArg some same.symm)
    exact query_setQuery_of_ne apart session _

/-- Between its own steps, a query stays what it is. -/
theorem query_run {history : List Step} (foreign : ∀ step ∈ history, step.query? ≠ some number)
    (session : Session) : (session.run history).1.query number = session.query number := by
  induction history generalizing session with
  | nil => rfl
  | cons step history ih =>
    obtain ⟨first, rest⟩ := List.forall_mem_cons.mp foreign
    exact (ih rest (session.perform step).1).trans (query_perform first session)

/-! ## Sessions that look the same to a query -/

/-- Two sessions that have the same collection and the same query of a number. -/
structure LooksLike (number : Int) (session alone : Session) : Prop where
  collection : session.collection = alone.collection
  query : session.query number = alone.query number

theorem LooksLike.refl (number : Int) (session : Session) : LooksLike number session session :=
  ⟨rfl, rfl⟩

/-- A step on another query can be left out. -/
theorem LooksLike.perform_foreign (same : LooksLike number session alone)
    (foreign : step.concerns number = false) :
    LooksLike number (session.perform step).1 alone := by
  cases step with
  | onCollection step => cases foreign
  | onQuery other step =>
    have apart : number ≠ other := (ne_of_beq_false foreign).symm
    exact ⟨same.collection, (query_setQuery_of_ne apart session _).trans same.query⟩

theorem LooksLike.performOnCollection (same : LooksLike number session alone)
    (step : Collection.Step) :
    (session.performOnCollection step).2 = (alone.performOnCollection step).2 ∧
      LooksLike number (session.performOnCollection step).1 (alone.performOnCollection step).1 := by
  unfold Session.performOnCollection
  rw [same.collection]
  exact ⟨rfl, rfl, same.query⟩

theorem LooksLike.performOnQuery (same : LooksLike number session alone) (step : Query.Step) :
    (session.performOnQuery number step).2 = (alone.performOnQuery number step).2 ∧
      LooksLike number (session.performOnQuery number step).1
        (alone.performOnQuery number step).1 := by
  unfold Session.performOnQuery
  rw [same.query, same.collection]
  refine ⟨rfl, same.collection, ?_⟩
  rw [query_setQuery_self, query_setQuery_self]

/-- A step on the collection or on the query itself has one answer in both sessions, and they go on
looking the same. -/
theorem LooksLike.perform (same : LooksLike number session alone)
    (concerned : step.concerns number = true) :
    (session.perform step).2 = (alone.perform step).2 ∧
      LooksLike number (session.perform step).1 (alone.perform step).1 := by
  cases step with
  | onCollection step =>
    obtain ⟨failure, further⟩ := same.performOnCollection step
    exact ⟨congrArg Answer.ofCollection failure, further⟩
  | onQuery other step =>
    obtain rfl : other = number := eq_of_beq concerned
    obtain ⟨outcome, further⟩ := same.performOnQuery step
    exact ⟨congrArg Answer.ofQuery outcome, further⟩

/-! ## Histories -/

theorem length_run (session : Session) (history : List Step) :
    (session.run history).2.length = history.length := by
  induction history generalizing session with
  | nil => rfl
  | cons step history ih => exact congrArg Nat.succ (ih (session.perform step).1)

/-- The steps of a history, each with its answer. -/
def transcript (session : Session) (history : List Step) : List (Step × Answer) :=
  history.zip (session.run history).2

theorem transcript_cons (session : Session) (step : Step) (history : List Step) :
    session.transcript (step :: history) =
      (step, (session.perform step).2) :: (session.perform step).1.transcript history := rfl

/-- Leaving out the steps on other queries makes no difference to the steps that are left. -/
theorem LooksLike.run (same : LooksLike number session alone) (history : List Step) :
    LooksLike number (session.run history).1
        (alone.run (history.filter (Step.concerns number))).1 ∧
      (session.transcript history).filter (fun entry => entry.1.concerns number) =
        alone.transcript (history.filter (Step.concerns number)) := by
  induction history generalizing session alone with
  | nil => exact ⟨same, rfl⟩
  | cons step history ih =>
    cases concerned : step.concerns number with
    | true =>
      obtain ⟨answer, further⟩ := same.perform concerned
      obtain ⟨last, transcripts⟩ := ih further
      rw [List.filter_cons_of_pos concerned]
      refine ⟨last, ?_⟩
      rw [transcript_cons, transcript_cons, List.filter_cons_of_pos (by exact concerned), answer,
        transcripts]
    | false =>
      have leftOut := ne_true_of_eq_false concerned
      obtain ⟨last, transcripts⟩ := ih (same.perform_foreign concerned)
      rw [List.filter_cons_of_neg leftOut]
      refine ⟨last, ?_⟩
      rw [transcript_cons, List.filter_cons_of_neg (by exact leftOut), transcripts]

/-- **Queries do not see each other.** After any history, a query and the collection are what they are
if the steps on all other queries are left out, and each step that is left has the answer that it has
in the whole history. From there on the query stays as it is, whatever is done to the collection and
to other queries, until a step is on the query itself. -/
theorem isolation (session : Session) (history : List Step) (number : Int) :
    let own := history.filter (Step.concerns number)
    let (last, answers) := session.run history
    let (alone, _) := session.run own
    answers.length = history.length ∧
      (session.transcript history).filter (fun entry => entry.1.concerns number) =
        session.transcript own ∧
      last.collection = alone.collection ∧ last.query number = alone.query number ∧
      ∀ later, (∀ step ∈ later, step.query? ≠ some number) →
        (last.run later).1.query number = last.query number := by
  obtain ⟨same, transcripts⟩ := (LooksLike.refl number session).run history
  refine ⟨length_run session history, transcripts, same.collection, same.query, ?_⟩
  intro later foreign
  exact query_run foreign (session.run history).1

end RecordQuery.Session

import Mathlib
import RecordQuery.Proofs.Entries
import RecordQuery.Proofs.Index.Creation
import RecordQuery.Proofs.Paging
import RecordQuery.Proofs.Query.Lifecycle
import RecordQuery.Proofs.Sorting

/-!
# A structured filter in stages

A filter's mapping may hold clauses, shorthand fields, an order under either of two names, a count to
skip under either of two names and a limit, in any order of its keys, and values that mean nothing
under their name. It does what its stages do one after the other: a filter by clauses alone, a filter
by an order alone, a skip and a limit (`Query.perform_filter_eq_stages`).
-/

namespace RecordQuery

namespace Filter

variable {filter : Entries Value}

/-! ## The stages -/

/-- The clauses that a filter gives outright. -/
def clausesGiven (filter : Entries Value) : Entries Value :=
  match given filter "where" with
  | .map entries => entries
  | _ => []

/-- The clauses for the fields given beside others: each has to equal its value. A key with another
meaning is none, nor is one that the others hold already. -/
def shorthand (others filter : Entries Value) : Entries Value :=
  (filter.filter fun entry => !(entry.1.memberOf reservedKeys || others.hasKey entry.1)).map
    fun entry => (entry.1, .map [(.str "==", entry.2)])

/-- The order that a filter gives, under its first name unless that counts as false. -/
def orderGiven (filter : Entries Value) : Value :=
  if (given filter "orderBy").isTruthy then given filter "orderBy" else given filter "sort"

/-- The step that skips, if the filter gives a number to skip under one of the two names. -/
def skipStage (filter : Entries Value) : List Query.Step :=
  if (given filter "skip").isNumber then [.skip (given filter "skip")]
  else if (given filter "offset").isNumber then [.skip (given filter "offset")]
  else []

/-- The step that limits, if the filter gives a number. -/
def limitStage (filter : Entries Value) : List Query.Step :=
  if (given filter "limit").isNumber then [.limit (given filter "limit")] else []

/-- A filter by one thing alone. -/
def only (name : String) (v : Value) : Query.Step :=
  .filter (.value (.map [(.str name, v)])) .null

/-- The steps that a filter stands for, one after the other. -/
def stages (filter : Entries Value) : List Query.Step :=
  [only "where" (.map (clausesGiven filter ++ shorthand (clausesGiven filter) filter)),
    only "orderBy" (orderGiven filter)] ++ skipStage filter ++ limitStage filter

/-! ## Clauses -/

/-- The fields asked of once one more entry of a filter is taken up: its field has to equal its value,
unless its key has another meaning or is a field asked of already. -/
def takeUp (asked : Entries Value) (entry : Value × Value) : Entries Value :=
  if entry.1.memberOf reservedKeys || asked.hasKey entry.1 then asked
  else asked.put entry.1 (.map [(.str "==", entry.2)])

theorem whereEntries_eq_foldl (filter : Entries Value) :
    whereEntries filter = filter.foldl takeUp (clausesGiven filter) := rfl

theorem takeUp_of_passed {asked : Entries Value} {entry : Value × Value}
    (passed : (entry.1.memberOf reservedKeys || asked.hasKey entry.1) = true) :
    takeUp asked entry = asked := if_pos passed

theorem takeUp_of_taken {asked : Entries Value} {entry : Value × Value}
    (taken : (entry.1.memberOf reservedKeys || asked.hasKey entry.1) = false) :
    takeUp asked entry = asked ++ [(entry.1, .map [(.str "==", entry.2)])] := by
  unfold takeUp
  rw [taken, if_neg Bool.false_ne_true,
    Entries.put_of_hasKey_eq_false (Bool.or_eq_false_iff.mp taken).2]

/-- Entries whose keys have another meaning ask nothing of a field. -/
theorem foldl_takeUp_of_reserved {entries asked : Entries Value}
    (reserved : ∀ entry ∈ entries, entry.1.memberOf reservedKeys = true) :
    entries.foldl takeUp asked = asked := by
  induction entries with
  | nil => rfl
  | cons entry rest ih =>
    obtain ⟨first, later⟩ := List.forall_mem_cons.mp reserved
    rw [List.foldl_cons, takeUp_of_passed (by rw [first, Bool.true_or]), ih later]

/-- Taking up the fields one by one puts the shorthand clauses behind those there are. -/
theorem foldl_takeUp {others asked entries : Entries Value} (distinct : entries.HasDistinctKeys)
    (same : ∀ entry ∈ entries, asked.hasKey entry.1 = others.hasKey entry.1) :
    entries.foldl takeUp asked = asked ++ shorthand others entries := by
  induction entries generalizing asked with
  | nil => exact (List.append_nil asked).symm
  | cons entry rest ih =>
    obtain ⟨apart, distinct⟩ := List.pairwise_cons.mp distinct
    have sameRest : ∀ later ∈ rest, asked.hasKey later.1 = others.hasKey later.1 :=
      fun later member => same later (List.mem_cons_of_mem entry member)
    rw [List.foldl_cons]
    cases passed : (entry.1.memberOf reservedKeys || asked.hasKey entry.1) with
    | true =>
      have left : shorthand others (entry :: rest) = shorthand others rest := by
        rw [same entry List.mem_cons_self] at passed
        unfold shorthand
        rw [List.filter_cons_of_neg (by rw [passed]; decide)]
      rw [left, takeUp_of_passed passed]
      exact ih distinct sameRest
    | false =>
      have taken : shorthand others (entry :: rest) =
          (entry.1, .map [(.str "==", entry.2)]) :: shorthand others rest := by
        rw [same entry List.mem_cons_self] at passed
        unfold shorthand
        rw [List.filter_cons_of_pos (by rw [passed]; rfl), List.map_cons]
      rw [taken, takeUp_of_taken passed]
      refine (ih distinct ?_).trans (List.append_assoc _ _ _)
      intro later member
      have other : Entries.hasKey [(entry.1, Value.map [(.str "==", entry.2)])] later.1 = false := by
        simpa [Entries.hasKey] using apart later member
      rw [Entries.hasKey_append, other, Bool.or_false]
      exact sameRest later member

theorem whereEntries_eq (distinct : filter.HasDistinctKeys) :
    whereEntries filter = clausesGiven filter ++ shorthand (clausesGiven filter) filter := by
  rw [whereEntries_eq_foldl]
  exact foldl_takeUp distinct fun _ _ => rfl

theorem apply_where (asked : Entries Value) (records : List Value) :
    apply [(.str "where", .map asked)] records =
      records.filter fun record => Clause.passes record (Clause.ofEntries asked) :=
  SortKey.sort_nil _

theorem apply_orderBy (order : Value) (records : List Value) :
    apply [(.str "orderBy", order)] records = SortKey.sort (SortKey.ofValue order) records := by
  have keys : sortKeys [(.str "orderBy", order)] =
      SortKey.ofValue (if order.isTruthy then order else .null) := rfl
  have all : records.filter (fun record => Clause.passes record (Clause.ofEntries [])) = records :=
    List.filter_true records
  have sorted : apply [(.str "orderBy", order)] records =
      SortKey.sort (sortKeys [(.str "orderBy", order)])
        (records.filter fun record => Clause.passes record (Clause.ofEntries [])) := rfl
  rw [sorted, all, keys]
  cases truthy : order.isTruthy with
  | true => rfl
  | false =>
    rw [SortKey.sort_ofValue_of_not_truthy truthy]
    exact SortKey.sort_nil records

end Filter

namespace Query

variable {collection : Collection} {query next last : Query} {steps later : List Step}
  {filter : Entries Value}

/-! ## Steps in a row -/

/-- The steps succeed one after the other, without calling a function, and lead to a query. -/
structure LeadsTo (collection : Collection) (query : Query) (steps : List Step) (last : Query) :
    Prop where
  reached : (query.performAll collection steps).1 = last
  smooth : ∀ outcome ∈ (query.performAll collection steps).2,
    outcome.answer = .ok .self ∧ outcome.calls = []

theorem leadsTo_nil : LeadsTo collection query [] query := ⟨rfl, List.forall_mem_nil _⟩

theorem leadsTo_singleton {step : Step}
    (performed : query.perform collection step = ⟨next, .ok .self, []⟩) :
    LeadsTo collection query [step] next := by
  constructor
  · exact congrArg Outcome.query performed
  · intro outcome member
    rw [List.mem_singleton.mp member, performed]
    exact ⟨rfl, rfl⟩

theorem LeadsTo.append (first : LeadsTo collection query steps next)
    (second : LeadsTo collection next later last) :
    LeadsTo collection query (steps ++ later) last := by
  have both := performAll_append collection query steps later
  dsimp only at both
  rw [first.reached] at both
  constructor
  · rw [both]
    exact second.reached
  · intro outcome member
    rw [both] at member
    rcases List.mem_append.mp member with early | late
    · exact first.smooth outcome early
    · exact second.smooth outcome late

theorem leadsTo_only (collection : Collection) (query : Query) (name : String) (v : Value) :
    LeadsTo collection query [Filter.only name v]
      (holding (Filter.apply [(.str name, v)] (query.current collection))) :=
  leadsTo_singleton rfl

theorem countOf_of_number {count : Value} {n : Numeric} (given : count.number? = some n)
    (operation : String) : countOf operation count = .ok n := by
  unfold countOf
  rw [given]

theorem perform_skip {count : Value} {n : Numeric} (given : count.number? = some n)
    (collection : Collection) (query : Query) : query.perform collection (.skip count) =
      ⟨holding (n.skip (query.current collection)), .ok .self, []⟩ := by
  unfold perform skip
  dsimp only
  rw [countOf_of_number given]
  rfl

theorem perform_limit {count : Value} {n : Numeric} (given : count.number? = some n)
    (collection : Collection) (query : Query) : query.perform collection (.limit count) =
      ⟨holding (n.limit (query.current collection)), .ok .self, []⟩ := by
  unfold perform limit
  dsimp only
  rw [countOf_of_number given]
  rfl

theorem leadsTo_skip {count : Value} (number : count.isNumber = true) (collection : Collection)
    (records : List Value) :
    LeadsTo collection (holding records) [.skip count] (holding (count.skipIfNumber records)) := by
  obtain ⟨n, given⟩ := Option.isSome_iff_exists.mp number
  apply leadsTo_singleton
  rw [perform_skip given, Value.skipIfNumber, given]
  rfl

theorem leadsTo_limit {count : Value} (number : count.isNumber = true) (collection : Collection)
    (records : List Value) :
    LeadsTo collection (holding records) [.limit count] (holding (count.limitIfNumber records)) := by
  obtain ⟨n, given⟩ := Option.isSome_iff_exists.mp number
  apply leadsTo_singleton
  rw [perform_limit given, Value.limitIfNumber, given]
  rfl

/-- The stage that skips does what the filter's count asks for, which is nothing without a number. -/
theorem leadsTo_skipStage (collection : Collection) (filter : Entries Value)
    (records : List Value) :
    LeadsTo collection (holding records) (Filter.skipStage filter)
      (holding ((Filter.skipCount filter).skipIfNumber records)) := by
  unfold Filter.skipStage Filter.skipCount
  dsimp only
  split
  · rename_i number
    exact leadsTo_skip number collection records
  · split
    · rename_i number
      exact leadsTo_skip number collection records
    · rename_i other
      rw [Value.skipIfNumber_of_not_number (eq_false_of_ne_true other)]
      exact leadsTo_nil

theorem leadsTo_limitStage (collection : Collection) (filter : Entries Value)
    (records : List Value) :
    LeadsTo collection (holding records) (Filter.limitStage filter)
      (holding ((Filter.given filter "limit").limitIfNumber records)) := by
  unfold Filter.limitStage
  split
  · rename_i number
    exact leadsTo_limit number collection records
  · rename_i other
    rw [Value.limitIfNumber_of_not_number (eq_false_of_ne_true other)]
    exact leadsTo_nil

/-- The stages of a filter lead to the query that the filter leaves. -/
theorem leadsTo_stages (distinct : filter.HasDistinctKeys) (collection : Collection)
    (query : Query) :
    LeadsTo collection query (Filter.stages filter)
      (holding (Filter.apply filter (query.current collection))) := by
  have clauses := leadsTo_only collection query "where"
    (.map (Filter.clausesGiven filter ++ Filter.shorthand (Filter.clausesGiven filter) filter))
  rw [← Filter.whereEntries_eq distinct, Filter.apply_where] at clauses
  have order := leadsTo_only collection
    (holding ((query.current collection).filter fun record =>
      Clause.passes record (Clause.ofEntries (Filter.whereEntries filter))))
    "orderBy" (Filter.orderGiven filter)
  rw [Filter.apply_orderBy] at order
  unfold Filter.stages
  rw [← Filter.whereEntries_eq distinct]
  exact ((clauses.append order).append (leadsTo_skipStage collection filter _)).append
    (leadsTo_limitStage collection filter _)

/-- **A structured filter is the chain of its stages.** On every query, a filter's mapping leaves the
query that its clauses with the shorthand fields, its order, its count to skip and its limit leave one
after the other, each as a step of its own; all of these steps succeed. -/
theorem perform_filter_eq_stages (distinct : filter.HasDistinctKeys) (collection : Collection)
    (query : Query) (context : Value) :
    let chain := query.performAll collection (Filter.stages filter)
    query.perform collection (.filter (.value (.map filter)) context) = ⟨chain.1, .ok .self, []⟩ ∧
      ∀ outcome ∈ chain.2, outcome.answer = .ok .self ∧ outcome.calls = [] := by
  intro chain
  have led := leadsTo_stages distinct collection query
  refine ⟨?_, led.smooth⟩
  rw [led.reached]
  rfl

/-- Shorthand beside clauses for another and for the same field, an order whose first name holds the
empty text, a count to skip that is a truth value beside an offset, and a limit that is a text. -/
theorem perform_filter_eq_stages_of_mixed :
    let record := fun (id a : Int) (s : String) => Value.map
      [(.str "id", .int id), (.str "a", .int a), (.str "s", .str s)]
    let records := [record 1 4 "x", record 2 2 "x", record 3 3 "y", record 4 9 "x", record 5 3 "x"]
    let primary : Index := .blank ["id"]
    let collection : Collection := ⟨.str "id", primary.insertAll records, []⟩
    let filter : Entries Value :=
      [(.str "limit", .str "1"), (.str "s", .str "x"), (.str "offset", .int 1), (.str "a", .int 2),
        (.str "where", .map [(.str "a", .map [(.str "<", .int 5)])]), (.str "orderBy", .str ""),
        (.str "skip", .bool true), (.str "sort", .list [.list [.str "a", .direction .descending]])]
    let chain := empty.performAll collection (Filter.stages filter)
    filter.HasDistinctKeys ∧ chain.1 = holding [record 5 3 "x", record 2 2 "x"] ∧
      empty.perform collection (.filter (.value (.map filter)) .null) =
        ⟨chain.1, .ok .self, []⟩ ∧
      ∀ outcome ∈ chain.2, outcome.answer = .ok .self ∧ outcome.calls = [] := by
  intro record records primary collection filter chain
  have distinct : filter.HasDistinctKeys := by
    unfold Entries.HasDistinctKeys
    decide
  refine ⟨distinct, ?_, perform_filter_eq_stages distinct collection empty .null⟩
  rw [(leadsTo_stages distinct collection empty).reached]
  cbv

end Query

end RecordQuery

import Mathlib
import RecordQuery.Itq.Execution
import RecordQuery.Proofs.Itq.Grouping
import RecordQuery.Proofs.Itq.Lexing.Division
import RecordQuery.Proofs.Outcome
import RecordQuery.Proofs.Paging
import RecordQuery.Proofs.Query.Lookup
import RecordQuery.Proofs.Query.Stages

/-!
# What the execution of a statement gives

The meaning of a statement is told step by step: the records of its retrieval, those that meet the
conditions in the order in which they are written, sorted, cut at both ends, as rows
(`Retrieval.records?`, `Statement.rowsOf`). Execution takes the way through options and a filter, on
which nothing is lost, merged or moved.
-/

namespace RecordQuery

/-- The index that a statement may name; no name and the empty one choose the primary index. -/
def Collection.named? (collection : Collection) : Option String → Option Index
  | none => some collection.primary
  | some name =>
    if name.isEmpty then some collection.primary else collection.secondary.find? (.str name)

namespace Itq

/-! ## The meaning of a statement -/

/-- Whether a record meets the condition. -/
def Condition.holds (record : Value) (condition : Condition) : Bool :=
  condition.relation.operator.evaluate (record.lookup (.ofString condition.field)) condition.value

/-- The result so far joined with a further condition. -/
def Condition.joinTo (record : Value) (keep : Bool) (condition : Condition) : Bool :=
  if condition.isOr then keep || condition.holds record else keep && condition.holds record

/-- Whether a record meets the conditions: the first one starts, and each further one joins. -/
def Condition.allow (record : Value) : List Condition → Bool
  | [] => true
  | first :: rest => rest.foldl (joinTo record) (first.holds record)

/-- The options of a range that is not paged; unless told, its left boundary belongs to it and its
right one does not. -/
def Retrieval.rangeOptions (inclusive? : Option Bool) : Options where
  index := .null
  leftInclusive := inclusive?.getD true
  rightInclusive := inclusive?.getD false
  offset := .null
  limit := .null
  extra := []

/-- The records that a retrieval gives, if the collection has the index that it names. -/
def Retrieval.records? (collection : Collection) : Retrieval → Option (List Value)
  | .scan => some collection.primary.toList
  | .get key index? =>
    if key.keyItems.isEmpty then some collection.primary.toList
    else (collection.named? index?).map fun index => index.get key
  | .getAll keys index? =>
    if keys.isEmpty then some collection.primary.toList
    else (collection.named? index?).map fun index => keys.flatMap index.get
  | .between left right index? inclusive? =>
    (collection.named? index?).map fun index => index.between left right (rangeOptions inclusive?)

/-- The rows that a statement makes of the records retrieved. -/
def Statement.rowsOf (statement : Statement) (records : List Value) : List (Entries Value) :=
  let kept := records.filter fun record => Condition.allow record statement.conditions
  let sorted := kept.mergeSort fun a b => (SortKey.compare statement.sortBy a b).isLE
  let rest := sliceFrom statement.offset sorted
  let page := match statement.limit with
    | some n => sliceTo n rest
    | none => rest
  page.map Result.rowOf

/-! ## Retrievals -/

/-- The value by which options choose an index. -/
def Retrieval.indexChoice : Option String → Value
  | none => .null
  | some name => if name.isEmpty then .null else .str name

/-- The options of a retrieval tell its index and its boundaries, and nothing else. -/
theorem Retrieval.ofValue_options (retrieval : Retrieval) :
    Options.ofValue (.map retrieval.options) [] =
      .ok { rangeOptions retrieval.inclusive? with index := indexChoice retrieval.index? } := by
  unfold Retrieval.options indexChoice
  rcases retrieval.index? with _ | name
  · rcases retrieval.inclusive? with _ | inclusive
    · rfl
    · rfl
  · dsimp only
    split
    · rcases retrieval.inclusive? with _ | inclusive
      · rfl
      · rfl
    · rename_i filled
      have chosen : (if (Value.str name).isTruthy then Value.str name else .null) = .str name := by
        rw [if_pos]
        rw [Value.isTruthy, eq_false_of_ne_true filled]
        rfl
      rcases retrieval.inclusive? with _ | inclusive
      · exact congrArg (fun index => Except.ok { rangeOptions none with index }) chosen
      · exact congrArg (fun index => Except.ok { rangeOptions (some inclusive) with index }) chosen

/-- The index that a collection selects by a retrieval's options is the one that it names. -/
theorem Retrieval.named?_of_select {collection : Collection} (retrieval : Retrieval)
    {options : Options} {index : Index}
    (told : Options.ofValue (.map retrieval.options) [] = .ok options)
    (selected : collection.select options = .ok index) :
    collection.named? retrieval.index? = some index := by
  cases told.symm.trans retrieval.ofValue_options
  unfold Collection.select at selected
  dsimp only at selected
  generalize retrieval.index? = name? at selected ⊢
  cases name? with
  | none =>
    cases selected
    rfl
  | some name =>
    by_cases blank : name.isEmpty = true
    · have choice : Retrieval.indexChoice (some name) = .null := if_pos blank
      rw [choice] at selected
      cases selected
      exact if_pos blank
    · have choice : Retrieval.indexChoice (some name) = .str name := if_neg blank
      have found : collection.secondary.find? (.str name) = some index := by
        rw [choice] at selected
        simp only [Value.isTruthy, eq_false_of_ne_true blank, Bool.not_false, Bool.not_true,
          Bool.false_eq_true, if_false, Value.unkeyable?] at selected
        split at selected
        · rename_i found
          cases selected
          exact found
        · cases selected
      exact (if_neg blank).trans found

/-- A query that takes its records from the selected index takes them from the one that is named. -/
theorem Retrieval.map_named?_of_select {collection : Collection} {query : Query}
    (retrieval : Retrieval) (take : Options → Index → List Value)
    (read : (do
      let options ← Options.ofValue (.map retrieval.options) []
      let index ← collection.select options
      return Query.holding (take options index)) = .ok query) :
    (collection.named? retrieval.index?).map
        (take { rangeOptions retrieval.inclusive? with index := indexChoice retrieval.index? }) =
      some (query.current collection) := by
  obtain ⟨options, told, selecting⟩ := bind_eq_ok.mp read
  obtain ⟨index, selected, held⟩ := bind_eq_ok.mp selecting
  rw [retrieval.named?_of_select told selected]
  cases told.symm.trans retrieval.ofValue_options
  cases held
  rfl

/-- A retrieval that succeeds gives the query the records of the index that the statement names. -/
theorem Statement.records?_of_retrieve {collection : Collection} {statement : Statement}
    {query : Query} (retrieved : statement.retrieve collection = .ok query) :
    statement.retrieval.records? collection = some (query.current collection) := by
  unfold retrieve at retrieved
  dsimp only at retrieved
  generalize statement.retrieval = retrieval at retrieved ⊢
  cases retrieval with
  | scan =>
    cases retrieved
    rfl
  | get key index? =>
    obtain ⟨_, _, keyed⟩ := bind_eq_ok.mp retrieved
    split at keyed
    · rename_i blank
      cases keyed
      exact if_pos blank
    · rename_i filled
      refine (if_neg filled).trans ?_
      exact (Retrieval.get key index?).map_named?_of_select (fun _ index => index.get key) keyed
  | getAll keys index? =>
    obtain ⟨_, _, keyed⟩ := bind_eq_ok.mp retrieved
    rw [Query.splitOptions_concat] at keyed
    dsimp only at keyed
    split at keyed
    · rename_i blank
      cases keyed
      exact if_pos blank
    · rename_i filled
      refine (if_neg filled).trans ?_
      exact (Retrieval.getAll keys index?).map_named?_of_select
        (fun _ index => keys.flatMap index.get) keyed
  | between left right index? inclusive? =>
    obtain ⟨_, _, ranged⟩ := bind_eq_ok.mp retrieved
    exact (Retrieval.between left right index? inclusive?).map_named?_of_select
      (fun options index => index.between left right options) ranged

/-! ## The filter of a statement -/

/-- The part of a filter under a name, if it has one. -/
def filterPart (name : String) (v? : Option Value) : Entries Value :=
  v?.toList.map fun v => (.str name, v)

theorem find?_filterPart (name other : String) (v? : Option Value) :
    (filterPart name v?).find? (.str other) = if name = other then v? else none := by
  cases v? with
  | none => exact (ite_self none).symm
  | some v =>
    have same : (Value.str name).isSame (.str other) = decide (name = other) := rfl
    unfold Entries.find? filterPart
    rw [Option.toList_some, List.map_singleton, List.find?_singleton]
    dsimp only
    rw [same]
    by_cases equal : name = other
    · simp [equal]
    · simp [equal]

theorem filterPart_if {c : Prop} [Decidable c] (name : String) (v : Value) :
    (if c then [] else [(Value.str name, v)]) = filterPart name (if c then none else some v) := by
  split <;> rfl

namespace Statement

/-- What a statement asks of fields, if it has conditions. -/
def askedOf (statement : Statement) : Option Value :=
  if (Condition.whereEntries statement.conditions).isEmpty then none
  else some (.map (Condition.whereEntries statement.conditions))

/-- The order that a statement asks for, if it has sort keys. -/
def orderOf (statement : Statement) : Option Value :=
  let order := statement.sortBy.map fun key => Value.list [.str key.field, .str key.direction.word]
  if order.isEmpty then none else some (.list order)

/-- The count that a statement asks to skip, unless it is zero. -/
def skipOf (statement : Statement) : Option Value :=
  if statement.offset = 0 then none else some (.int statement.offset)

theorem filterEntries_eq (statement : Statement) : statement.filterEntries =
    filterPart "where" statement.askedOf ++ filterPart "orderBy" statement.orderOf ++
      filterPart "skip" statement.skipOf ++ filterPart "limit" (statement.limit.map .int) := by
  unfold filterEntries askedOf orderOf skipOf
  dsimp only
  rw [filterPart_if, filterPart_if, filterPart_if]
  cases statement.limit <;> rfl

/-- The filter gives back each of its parts, and nothing under other names. -/
theorem given_filterEntries (statement : Statement) :
    Filter.given statement.filterEntries "where" = .ofOption statement.askedOf ∧
      Filter.given statement.filterEntries "orderBy" = .ofOption statement.orderOf ∧
      Filter.given statement.filterEntries "sort" = .null ∧
      Filter.given statement.filterEntries "skip" = .ofOption statement.skipOf ∧
      Filter.given statement.filterEntries "offset" = .null ∧
      Filter.given statement.filterEntries "limit" = .ofOption (statement.limit.map .int) := by
  rw [filterEntries_eq]
  simp [Filter.given, Entries.find?_append, find?_filterPart, Value.ofOption]

/-- Every name in the filter has a meaning of its own, so none is taken for a field. -/
theorem memberOf_reservedKeys {statement : Statement} {entry : Value × Value}
    (member : entry ∈ statement.filterEntries) :
    entry.1.memberOf Filter.reservedKeys = true := by
  rw [filterEntries_eq] at member
  simp only [filterPart, List.mem_append, List.mem_map] at member
  rcases member with ((⟨_, _, rfl⟩ | ⟨_, _, rfl⟩) | ⟨_, _, rfl⟩) | ⟨_, _, rfl⟩ <;> rfl

/-- The clauses that a statement's filter gives outright are all that it asks of fields. -/
theorem clausesGiven_filterEntries (statement : Statement) :
    Filter.clausesGiven statement.filterEntries =
      Condition.whereEntries statement.conditions := by
  unfold Filter.clausesGiven
  rw [statement.given_filterEntries.1]
  unfold askedOf
  by_cases blank : (Condition.whereEntries statement.conditions).isEmpty = true
  · rw [if_pos blank]
    exact (List.isEmpty_iff.mp blank).symm
  · rw [if_neg blank]
    rfl

theorem whereEntries_filterEntries (statement : Statement) :
    Filter.whereEntries statement.filterEntries =
      Condition.whereEntries statement.conditions := by
  rw [Filter.whereEntries_eq_foldl, clausesGiven_filterEntries]
  exact Filter.foldl_takeUp_of_reserved fun _ => memberOf_reservedKeys

theorem ofItem?_word (key : SortKey) :
    SortKey.ofItem? (.list [.str key.field, .str key.direction.word]) = some key := by
  obtain ⟨field, direction⟩ := key
  have direct : Direction.ofValue (.str direction.word) = direction := by
    cases direction <;> decide
  exact congrArg (fun direction => some (SortKey.mk field direction)) direct

theorem sortKeys_filterEntries (statement : Statement) :
    Filter.sortKeys statement.filterEntries = statement.sortBy := by
  obtain ⟨-, order, sort, -⟩ := statement.given_filterEntries
  unfold Filter.sortKeys
  rw [order, sort]
  unfold orderOf
  cases statement.sortBy with
  | nil => rfl
  | cons key keys =>
    have items : SortKey.ofValue (.list ((key :: keys).map fun key =>
        .list [.str key.field, .str key.direction.word])) = key :: keys := by
      unfold SortKey.ofValue
      dsimp only
      have read : (SortKey.ofItem? ∘ fun key : SortKey =>
          Value.list [.str key.field, .str key.direction.word]) = some := funext ofItem?_word
      rw [List.filterMap_map, read, List.filterMap_some]
    exact items

theorem skip_filterEntries (statement : Statement) (records : List Value) :
    (Filter.skipCount statement.filterEntries).skipIfNumber records =
      sliceFrom statement.offset records := by
  obtain ⟨-, -, -, skip, offset, -⟩ := statement.given_filterEntries
  unfold Filter.skipCount
  dsimp only
  rw [skip, offset]
  unfold skipOf
  by_cases zero : statement.offset = 0
  · rw [if_pos zero, zero]
    rfl
  · rw [if_neg zero]
    exact skip_int statement.offset records

theorem limit_filterEntries (statement : Statement) (records : List Value) :
    (Filter.given statement.filterEntries "limit").limitIfNumber records =
      match statement.limit with
      | some n => sliceTo n records
      | none => records := by
  obtain ⟨-, -, -, -, -, limit⟩ := statement.given_filterEntries
  rw [limit]
  cases statement.limit with
  | none => rfl
  | some n => exact limit_int n records

end Statement

/-! ## Conditions -/

/-- The clauses of conditions keep the records that the conditions allow. -/
theorem Condition.passes_clauses (record : Value) (conditions : List Condition) :
    Clause.passes record (conditions.map clause) = allow record conditions := by
  cases conditions with
  | nil => rfl
  | cons first rest =>
    rw [List.map_cons]
    unfold Clause.passes allow
    dsimp only
    rw [List.foldl_map]
    rfl

/-! ## Execution -/

namespace Statement

/-- A statement that a text spells has conditions that pass their check. -/
theorem check_of_ofText [CharacterNames] {text : String} {statement : Statement}
    (accepted : ofText text = .ok statement) :
    Condition.check statement.conditions = .ok () := by
  obtain ⟨ts, read, phrase, checked⟩ := ofText_eq_ok.mp accepted
  exact checked

/-- A statement gives what its filter leaves of the records that are retrieved. -/
theorem execute_of_retrieve {collection : Collection} {statement : Statement} {query : Query}
    (retrieved : statement.retrieve collection = .ok query) : statement.execute collection =
      .ok (.ofRecords (Filter.apply statement.filterEntries (query.current collection))) := by
  unfold execute
  rw [retrieved]

theorem apply_filterEntries {statement : Statement}
    (checked : Condition.check statement.conditions = .ok ()) (records : List Value) :
    (Filter.apply statement.filterEntries records).map Result.rowOf =
      statement.rowsOf records := by
  unfold Filter.apply rowsOf
  dsimp only
  rw [whereEntries_filterEntries, Condition.ofEntries_whereEntries checked,
    sortKeys_filterEntries, skip_filterEntries, limit_filterEntries]
  simp only [Condition.passes_clauses]
  rfl

/-- **Execution loses, merges and moves nothing.** When a text spells a statement and its retrieval
succeeds, execution succeeds without a message, and its rows are those of the records retrieved from
the index that the statement names: the records that meet the conditions in the order in which they
are written, stably sorted, with those before the offset dropped and those past the limit cut off. -/
theorem execute_eq_rowsOf [CharacterNames] {collection : Collection} {text : String}
    {statement : Statement} {query : Query} (accepted : ofText text = .ok statement)
    (retrieved : statement.retrieve collection = .ok query) :
    ∃ records result, statement.retrieval.records? collection = some records ∧
      statement.execute collection = .ok result ∧
      result.rows = statement.rowsOf records ∧ result.message = none := by
  have rows := apply_filterEntries (check_of_ofText accepted) (query.current collection)
  exact ⟨_, _, records?_of_retrieve retrieved, execute_of_retrieve retrieved, rows, rfl⟩

open scoped CharacterNames

/-- A range of a secondary index, both boundaries included, of which the conditions keep two records
and the limit one. -/
theorem execute_eq_rowsOf_of_range :
    let record := fun (id a k : Int) => Value.map
      [(.str "id", .int id), (.str "a", .int a), (.str "k", .int k)]
    let byId : Index := .blank ["id"]
    let byA : Index := .blank ["a"]
    let records := [record 1 4 1, record 2 2 2, record 3 3 2]
    let collection : Collection :=
      ⟨.str "id", byId.insertAll records, [(.str "a", byA.insertAll records)]⟩
    let text := "between 2 and 4 using a inclusive where k = 1 or a < 3 sort by a desc limit 1"
    let statement : Statement :=
      ⟨.between (.int 2) (.int 4) (some "a") (some true),
        [⟨"k", .comparison .equal, .int 1, false⟩, ⟨"a", .comparison .less, .int 3, true⟩],
        [⟨"a", .descending⟩], 0, some 1⟩
    let query := Query.holding [record 2 2 2, record 3 3 2, record 1 4 1]
    ofText text = .ok statement ∧ statement.retrieve collection = .ok query ∧
      ∃ records result, statement.retrieval.records? collection = some records ∧
        statement.execute collection = .ok result ∧
        result.rows = statement.rowsOf records ∧ result.message = none := by
  intro record byId byA records collection text statement query
  have accepted : ofText text = .ok statement := by
    subst text statement
    cbv
  have retrieved : statement.retrieve collection = .ok query := by
    refine bind_eq_ok.mpr ⟨(), rfl, ?_⟩
    refine bind_eq_ok.mpr ⟨⟨.str "a", true, true, .null, .null, []⟩, rfl, ?_⟩
    refine bind_eq_ok.mpr ⟨byA.insertAll records, rfl, ?_⟩
    cbv
  exact ⟨accepted, retrieved, execute_eq_rowsOf accepted retrieved⟩

end Statement

end Itq

end RecordQuery

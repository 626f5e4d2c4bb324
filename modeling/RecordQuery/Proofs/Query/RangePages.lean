import Mathlib
import RecordQuery.Proofs.Index.Range
import RecordQuery.Proofs.Query.Naming
import RecordQuery.Proofs.Query.Stages

/-!
# Pages of a range

A page of a range can be asked for in three ways: by options of the range, by a filter, and by a skip
and a limit. Options for a page change nothing else about the options (`Options.ofValue_append_paging`),
and the early end of a range without records does not show, since there is nothing to cut
(`Index.between_paged`). So the three ways give the same, whatever the values are by which they ask
(`Query.between_append_paging`), and they do as steps of a chain (`Query.chain_between_paging`).
-/

namespace RecordQuery

/-! ## Options for a page -/

namespace Options

/-- The named values that ask for a page. -/
def paging (offset limit : Value) : Entries Value := [(.str "offset", offset), (.str "limit", limit)]

/-- The options ask for no page, as far as they can be read. -/
def AskNoPage (options : Value) (named : Entries Value) : Prop :=
  ∀ read, ofValue options named = .ok read →
    read.offset.isNumber = false ∧ read.limit.isNumber = false

theorem merge_append_paging (entries named : Entries Value) (offset limit : Value) :
    merge [entries, named ++ paging offset limit] =
      ((merge [entries, named]).put (.str "offset") offset).put (.str "limit") limit := by
  have flat : [entries, named ++ paging offset limit].flatten =
      [entries, named].flatten ++ paging offset limit := by simp
  unfold merge Entries.ofPairs
  rw [flat, List.map_append, List.foldl_append]
  rfl

theorem ofEntries_put_paging (merged : Entries Value) (offset limit : Value) :
    ofEntries ((merged.put (.str "offset") offset).put (.str "limit") limit) =
      { ofEntries merged with offset, limit } := by
  have found (name : String) :
      Entries.find? ((merged.put (.str "offset") offset).put (.str "limit") limit) (.str name) =
        (Entries.find? [(.str "limit", limit)] (.str name)).or
          ((Entries.find? [(.str "offset", offset)] (.str name)).or
            (merged.find? (.str name))) := by
    rw [Entries.find?_put _ (.str "limit", limit), Entries.find?_put _ (.str "offset", offset)]
  have known {name : String} (listed : (Value.str name).memberOf knownNames = true) :
      ∀ other : Value, other.isSame (.str name) = true →
        (!other.memberOf knownNames) = false := by
    intro other same
    rw [Value.isSame_str_iff.mp same, listed]
    rfl
  have extra : ((merged.put (.str "offset") offset).put (.str "limit") limit).filter
      (fun option => !option.1.memberOf knownNames) =
        merged.filter fun option => !option.1.memberOf knownNames := by
    rw [Entries.filter_put _ limit (fun name => !name.memberOf knownNames) (known rfl),
      Entries.filter_put _ offset (fun name => !name.memberOf knownNames) (known rfl)]
  unfold ofEntries inclusivity
  rw [found "index", found "left_inclusive", found "right_inclusive", found "offset",
    found "limit", extra]
  rfl

/-- Named values that ask for a page set the offset and the limit and nothing else. -/
theorem ofValue_append_paging (options : Value) (named : Entries Value) (offset limit : Value) :
    ofValue options (named ++ paging offset limit) =
      (ofValue options named).map fun read => { read with offset, limit } := by
  have reserved : reserved? (named ++ paging offset limit) = reserved? named := by
    unfold reserved?
    rw [List.findSome?_append]
    exact Option.or_none
  unfold ofValue
  rw [reserved]
  cases reserved? named with
  | some name => rfl
  | none =>
    cases entriesOf options with
    | error e => rfl
    | ok entries =>
      have read := congrArg ofEntries (merge_append_paging entries named offset limit)
      exact congrArg Except.ok (read.trans (ofEntries_put_paging _ offset limit))

end Options

/-! ## Ranges and filters that page -/

/-- A range that asks for a page is the whole range, paged afterwards. -/
theorem Index.between_paged (index : Index) (left right : Value) {options : Options}
    (unskipped : options.offset.isNumber = false) (unlimited : options.limit.isNumber = false)
    (offset limit : Value) :
    index.between left right { options with offset, limit } =
      limit.limitIfNumber (offset.skipIfNumber (index.between left right options)) := by
  unfold between
  dsimp only
  split
  · rw [Value.skipIfNumber_nil, Value.limitIfNumber_nil]
  · rw [Value.skipIfNumber_of_not_number unskipped, Value.limitIfNumber_of_not_number unlimited]

/-- A filter by a count to skip and a limit does nothing else. -/
theorem Filter.apply_paging (offset limit : Value) (records : List Value) :
    apply [(.str "skip", offset), (.str "limit", limit)] records =
      limit.limitIfNumber (offset.skipIfNumber records) := by
  have all : records.filter (fun record => Clause.passes record (Clause.ofEntries [])) = records :=
    List.filter_true records
  have skipped (sorted : List Value) :
      (skipCount [(.str "skip", offset), (.str "limit", limit)]).skipIfNumber sorted =
        offset.skipIfNumber sorted := by
    have count : skipCount [(.str "skip", offset), (.str "limit", limit)] =
        if offset.isNumber then offset else .null := rfl
    rw [count]
    split
    · rfl
    · rename_i other
      rw [Value.skipIfNumber_of_not_number (eq_false_of_ne_true other)]
      rfl
  have unfolded : apply [(.str "skip", offset), (.str "limit", limit)] records =
      limit.limitIfNumber ((skipCount [(.str "skip", offset), (.str "limit", limit)]).skipIfNumber
        (SortKey.sort [] (records.filter fun record =>
          Clause.passes record (Clause.ofEntries [])))) := rfl
  rw [unfolded, skipped, SortKey.sort_nil, all]

namespace Query

variable {collection : Collection} {query next : Query} {step : Step} {left right options : Value}
  {named : Entries Value}

/-! ## Calls in a row -/

/-- What calls in a row hand out at their end, or the error of the first one that fails. -/
def chain (collection : Collection) (query : Query) : List Step → Except Error Answer
  | [] => (query.perform collection .run).answer
  | step :: rest =>
    let outcome := query.perform collection step
    outcome.answer.bind fun _ => outcome.query.chain collection rest

theorem chain_cons_of_ok (performed : query.perform collection step = ⟨next, .ok .self, []⟩)
    (rest : List Step) : query.chain collection (step :: rest) = next.chain collection rest := by
  rw [chain, performed]
  rfl

theorem chain_cons_of_error {e : Error}
    (refused : query.perform collection step = ⟨query, .error e, []⟩) (rest : List Step) :
    query.chain collection (step :: rest) = .error e := by
  rw [chain, refused]
  rfl

/-! ## Three ways to a page -/

/-- A range with options for a page holds the whole range paged, or is refused as that is. -/
theorem between_append_paging (unpaged : Options.AskNoPage options named)
    (offset limit : Value) :
    query.between collection left right options (named ++ Options.paging offset limit) =
      (query.between collection left right options named).map fun range =>
        holding (limit.limitIfNumber (offset.skipIfNumber range.records)) := by
  unfold between
  rw [Options.ofValue_append_paging]
  cases query.checkEmpty with
  | error e => rfl
  | ok _ =>
    cases told : Options.ofValue options named with
    | error e => rfl
    | ok read =>
      obtain ⟨unskipped, unlimited⟩ := unpaged read told
      change (do
        let index ← collection.select read
        return holding (index.between left right { read with offset, limit })) = Except.map _ (do
          let index ← collection.select read
          return holding (index.between left right read))
      cases collection.select read with
      | error e => rfl
      | ok index =>
        have paged := index.between_paged left right unskipped unlimited offset limit
        exact congrArg (fun records => Except.ok (holding records)) paged

/-- **A range is paged the same in three ways.** Over every collection and from every query, by every
index, boundaries and inclusivities, and for values of any kind to skip and to limit by, a range with
these options hands out what the range hands out after a filter by a count to skip and a limit, and,
if both values are numbers, what it hands out after a skip and a limit. If the range is refused, all
three are, with the same error. -/
theorem chain_between_paging (collection : Collection) (query : Query) (left right : Value)
    (unpaged : Options.AskNoPage options named) (offset limit context : Value) :
    let range : Step := .between left right options named
    let paged : Step := .between left right options (named ++ Options.paging offset limit)
    let filter : Step :=
      .filter (.value (.map [(.str "skip", offset), (.str "limit", limit)])) context
    query.chain collection [paged] = query.chain collection [range, filter] ∧
      (offset.isNumber = true → limit.isNumber = true →
        query.chain collection [paged] =
          query.chain collection [range, .skip offset, .limit limit]) := by
  intro range paged filter
  have asked : query.perform collection paged = .ofResult query
      (query.between collection left right options (named ++ Options.paging offset limit)) := rfl
  rw [between_append_paging unpaged] at asked
  have whole : query.perform collection range =
      .ofResult query (query.between collection left right options named) := rfl
  cases found : query.between collection left right options named with
  | error e =>
    rw [found] at asked whole
    rw [chain_cons_of_error asked, chain_cons_of_error whole, chain_cons_of_error whole]
    exact ⟨rfl, fun _ _ => rfl⟩
  | ok next =>
    rw [found] at asked whole
    have populated : next.state = .populated :=
      populates_between collection query left right options named next found
    have current : next.current collection = next.records := by
      unfold current
      rw [records?_of_populated populated]
      rfl
    rw [chain_cons_of_ok asked, chain_cons_of_ok whole, chain_cons_of_ok whole]
    constructor
    · have filtered : next.perform collection filter =
          ⟨holding (Filter.apply [(.str "skip", offset), (.str "limit", limit)]
            (next.current collection)), .ok .self, []⟩ := rfl
      rw [Filter.apply_paging, current] at filtered
      rw [chain_cons_of_ok filtered]
    · intro counts limits
      obtain ⟨n, number⟩ := Option.isSome_iff_exists.mp counts
      obtain ⟨m, number'⟩ := Option.isSome_iff_exists.mp limits
      have skipped := perform_skip number collection next
      rw [current] at skipped
      have limited := perform_limit number' collection (holding (n.skip next.records))
      rw [chain_cons_of_ok skipped, chain_cons_of_ok limited]
      unfold Value.limitIfNumber Value.skipIfNumber
      rw [number, number']
      rfl

/-- A range of a secondary index with both boundaries, whose own limit is a text, skipped by a
fraction and limited from the end. -/
theorem chain_between_paging_of_fraction :
    let record := fun (id a : Int) => Value.map [(.str "id", .int id), (.str "a", .int a)]
    let byId : Index := .blank ["id"]
    let byA : Index := .blank ["a"]
    let records := [record 1 3, record 2 1, record 3 2, record 4 2]
    let collection : Collection :=
      ⟨.str "id", byId.insertAll records, [(.str "a", byA.insertAll records)]⟩
    let options := Value.map
      [(.str "index", .str "a"), (.str "rightInclusive", .int 1), (.str "limit", .str "9")]
    let offset := Value.float (.finite false 3 (-1))
    let limit := Value.int (-1)
    let range : Step := .between (.int 1) (.int 3) options []
    let paged : Step := .between (.int 1) (.int 3) options (Options.paging offset limit)
    let filter : Step := .filter (.value (.map [(.str "skip", offset), (.str "limit", limit)])) .null
    Options.AskNoPage options [] ∧ offset.isNumber = true ∧ limit.isNumber = true ∧
      empty.chain collection [paged] = .ok (.value (.list [record 3 2, record 4 2])) ∧
      empty.chain collection [paged] = empty.chain collection [range, filter] ∧
      empty.chain collection [paged] =
        empty.chain collection [range, .skip offset, .limit limit] := by
  intro record byId byA records collection options offset limit range paged filter
  have unpaged : Options.AskNoPage options [] := by
    intro read told
    cases told
    exact ⟨rfl, rfl⟩
  obtain ⟨filtered, cut⟩ :=
    chain_between_paging collection empty (.int 1) (.int 3) unpaged offset limit .null
  exact ⟨unpaged, rfl, rfl, by cbv, filtered, cut rfl rfl⟩

end Query

end RecordQuery

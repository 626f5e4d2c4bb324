import Mathlib
import RecordQuery.Proofs.Itq.UnknownIndex

/-!
# Literal keys in brackets

A literal as a key means the same with and without brackets around it, unless it is `null`: without
brackets this is the key that has no components, and within them the key whose one component is
missing. A lookup tells the two apart, and a range does where its boundary lies behind the records
that they lead (`bracketed_key`).
-/

namespace RecordQuery

/-! ## Bounds -/

/-- What a literal is as a key: `null`, or its own one component. -/
def Value.IsBare (v : Value) : Prop := v = .null ∨ v.keyItems = [v]

theorem Value.toKey_list_singleton {v : Value} (single : v.keyItems = [v]) :
    (Value.list [v]).toKey = v.toKey := by
  have items : (Value.list [v]).keyItems = [v] := rfl
  unfold toKey
  rw [items, single]

namespace Index

variable {index : Index} {inserted : List Value}

/-- No record lies before the missing component. -/
theorem Built.bound_missing (built : Built index inserted) :
    index.bound [.missing] false = 0 := by
  refine (built.isCut_bound [.missing] false).eq_zero fun record => ?_
  have length := built.length_keyOf record
  generalize index.keyOf record = key at length ⊢
  cases key with
  | nil => exact absurd (List.length_eq_zero_iff.mp length.symm) built.fields_ne_nil
  | cons part key => cases part <;> rfl

/-- Brackets do not move the bound before a boundary. -/
theorem Built.bound_before (built : Built index inserted) {v : Value} (bare : v.IsBare) :
    index.bound (Value.list [v]).toKey false = index.bound v.toKey false := by
  rcases bare with rfl | single
  · exact built.bound_missing.trans built.bound_nil.symm
  · rw [Value.toKey_list_singleton single]

/-- Nor do they move any bound of a boundary other than `null`. -/
theorem Built.bound_bracketed (built : Built index inserted) {v : Value} (bare : v.IsBare)
    {past : Bool} (filled : past = true → v ≠ .null) :
    index.bound (Value.list [v]).toKey past = index.bound v.toKey past := by
  cases past with
  | false => exact built.bound_before bare
  | true => rw [Value.toKey_list_singleton (bare.resolve_left (filled rfl))]

/-- Brackets around the boundaries do not change a range, unless it reaches to behind a missing
component. -/
theorem Built.between_bracketed (built : Built index inserted) {left right : Value}
    (first : left.IsBare) (last : right.IsBare) {options : Options}
    (starts : options.leftInclusive = false → left ≠ .null ∨ right = .null)
    (stops : options.rightInclusive = true → right ≠ .null) :
    index.between (.list [left]) (.list [right]) options = index.between left right options := by
  have stop := built.bound_bracketed last stops
  unfold between
  rw [stop]
  by_cases empty : right = .null ∧ options.rightInclusive = false
  · -- Nothing lies before a missing boundary that does not belong to the range.
    obtain ⟨rfl, excluded⟩ := empty
    have nothing : index.bound Value.null.toKey options.rightInclusive = 0 := by
      rw [excluded]
      exact built.bound_nil
    dsimp only
    rw [nothing, if_pos (Nat.zero_le _), if_pos (Nat.zero_le _)]
  · have start : index.bound (Value.list [left]).toKey (!options.leftInclusive) =
        index.bound left.toKey (!options.leftInclusive) := by
      refine built.bound_bracketed first fun excluded => ?_
      refine (starts (by simpa using excluded)).resolve_right fun same => ?_
      exact empty ⟨same, eq_false_of_ne_true fun included => stops included same⟩
    rw [start]

end Index

namespace Itq

open Grammar

/-! ## Texts -/

/-- The text is a statement, and executed over the collection it gives the result. -/
def Gives [CharacterNames] (collection : Collection) (text : String) (result : Result) : Prop :=
  ∃ s, Statement.ofText text = .ok s ∧ s.execute collection = .ok result

/-- The tokens spell what may stand behind a retrieval, here the statement that they make without
one. -/
structure IsTail (ts : List Token) (s : Statement) : Prop where
  phrase : IsStatement ts s
  scan : s.retrieval = .scan
  checked : Condition.check s.conditions = .ok ()

/-- A token in brackets. -/
def bracket (t : Token) : List Token := [.symbol .leftBracket, t, .symbol .rightBracket]

/-- The tokens of a lookup in an index, given those of the key. -/
def lookupTokens (word preposition : String) (key : List Token) (name : String) : List Token :=
  .keyword .get word :: (key ++ [.keyword .usingIndex preposition, .identifier name])

/-- The tokens of a range of an index, given those of the boundaries and of the range clause. -/
def betweenTokens (word conjunction preposition : String) (left right : List Token) (name : String)
    (range : List Token) : List Token :=
  .keyword .between word :: (left ++ .keyword .and conjunction ::
    (right ++ ([.keyword .usingIndex preposition, .identifier name] ++ range)))

theorem isBare_of_literal? {t : Token} {v : Value} (told : t.literal? = some v) :
    v.IsBare := by
  cases t with
  | keyword k word => cases k <;> cases told <;> first | exact .inl rfl | exact .inr rfl
  | identifier name => cases told
  | symbol s => cases told
  | _ =>
    cases told
    exact .inr rfl

theorem isValue_bracket {t : Token} {v : Value} (told : t.literal? = some v) :
    IsValue (bracket t) (.list [v]) :=
  .list (.values (.single (Read.isValue_of_literal? told)))

theorem eq_nil_of_scan {ts : List Token} {retrieval : Retrieval}
    (phrase : IsRetrieval ts retrieval) (scan : retrieval = .scan) : ts = [] := by
  cases phrase with
  | scan => rfl
  | get =>
    unfold Retrieval.ofKeys at scan
    split at scan <;> cases scan
  | between => cases scan

/-- A retrieval in front of a tail makes a statement. -/
theorem IsTail.isStatement {clauses ts : List Token} {s : Statement} {retrieval : Retrieval}
    (tail : IsTail clauses s) (phrase : IsRetrieval ts retrieval) :
    IsStatement (ts ++ clauses) { s with retrieval } := by
  obtain ⟨whole, scan, -⟩ := tail
  have query : ∀ {rest}, IsQuery rest s → IsQuery (ts ++ rest) { s with retrieval } := by
    intro rest query
    cases query with
    | clauses retrieved asked sorted skipped limited =>
      rw [eq_nil_of_scan retrieved scan, List.nil_append]
      exact .clauses phrase asked sorted skipped limited
  cases whole with
  | plain rest => exact .plain (query rest)
  | semicolon rest =>
    rw [← List.append_assoc]
    exact .semicolon (query rest)

/-! ## Results -/

section

variable {collection : Collection} {name : String} {index : Index}
  (found : collection.secondary.find? (.str name) = some index) (filled : name ≠ "")

include found filled

/-- The index of the name is there to take records from. -/
theorem Retrieval.selected_of_found (retrieval : Retrieval)
    (named : retrieval.index? = some name) (take : Options → Index → Query) : (do
      let options ← Options.ofValue (.map retrieval.options) []
      let index ← collection.select options
      return take options index) =
        .ok (take { rangeOptions retrieval.inclusive? with index := .str name } index) := by
  have choice : indexChoice (some name) = .str name := if_neg (by rwa [String.isEmpty_iff])
  rw [retrieval.ofValue_options, named, choice]
  change (do
    let index ← collection.select { rangeOptions retrieval.inclusive? with index := .str name }
    return take { rangeOptions retrieval.inclusive? with index := .str name } index) = _
  rw [Collection.select_of_found found filled rfl]
  rfl

theorem Statement.execute_get_of_found (s : Statement) {key : Value} (keyed : key.keyItems ≠ []) :
    { s with retrieval := .get key (some name) }.execute collection =
      .ok (.ofRecords (Filter.apply s.filterEntries (index.get (.list key.keyItems)))) := by
  have selected := Retrieval.selected_of_found found filled (.get key (some name)) rfl
    fun _ index => Query.holding (index.get (.list key.keyItems))
  have retrieved : { s with retrieval := .get key (some name) }.retrieve collection =
      .ok (Query.holding (index.get (.list key.keyItems))) := by
    unfold retrieve Query.get
    dsimp only
    rw [List.isEmpty_eq_false_iff.mpr keyed]
    exact selected
  rw [execute_of_retrieve retrieved]
  rfl

theorem Statement.execute_between_of_found (s : Statement) (left right : Value)
    (inclusive? : Option Bool) :
    { s with retrieval := .between left right (some name) inclusive? }.execute collection =
      .ok (.ofRecords (Filter.apply s.filterEntries
        (index.between left right (Retrieval.rangeOptions inclusive?)))) := by
  have selected := Retrieval.selected_of_found found filled
    (.between left right (some name) inclusive?) rfl
    fun options index => Query.holding (index.between left right options)
  have retrieved :
      { s with retrieval := .between left right (some name) inclusive? }.retrieve collection =
        .ok (Query.holding (index.between left right (Retrieval.rangeOptions inclusive?))) :=
    selected
  rw [execute_of_retrieve retrieved]
  rfl

end

theorem Statement.execute_of_scan {collection : Collection} {s : Statement}
    (scan : s.retrieval = .scan) : s.execute collection =
      .ok (.ofRecords (Filter.apply s.filterEntries collection.primary.toList)) := by
  have retrieved : s.retrieve collection = .ok .empty := by
    unfold retrieve
    rw [scan]
  rw [execute_of_retrieve retrieved]
  rfl

/-- The lookup of `null` takes all records. -/
theorem Statement.execute_get_null (collection : Collection) (s : Statement)
    (index? : Option String) : { s with retrieval := .get .null index? }.execute collection =
      .ok (.ofRecords (Filter.apply s.filterEntries collection.primary.toList)) := by
  have blank : ({ s with retrieval := .get .null index? } : Statement).retrieval.IsBlankGet := rfl
  rw [execute_of_isBlankGet collection blank, execute_of_scan rfl]
  rfl

/-- Which brackets around `null` the range clause keeps from mattering. -/
theorem Retrieval.between_bracketed {index : Index} {inserted : List Value}
    (built : index.Built inserted) {left right : Value} (first : left.IsBare) (last : right.IsBare)
    {inclusive? : Option Bool}
    (starts : inclusive? = some false → left ≠ .null ∨ right = .null)
    (stops : inclusive? = some true → right ≠ .null) :
    index.between (.list [left]) (.list [right]) (rangeOptions inclusive?) =
      index.between left right (rangeOptions inclusive?) := by
  refine built.between_bracketed first last (fun excluded => starts ?_) fun included => stops ?_
  · rcases inclusive? with _ | _ | _ <;> cases excluded
    rfl
  · rcases inclusive? with _ | _ | _ <;> cases included
    rfl

/-! ## Keys and boundaries -/

section

variable {collection : Collection} {text : String} {clauses ts : List Token} {s : Statement}

theorem IsTail.gives [CharacterNames] {retrieval : Retrieval} {result : Result}
    (tail : IsTail clauses s) (phrase : IsRetrieval ts retrieval) (read : IsTokenized text (ts ++ clauses))
    (executed : { s with retrieval }.execute collection = .ok result) :
    Gives collection text result :=
  ⟨_, Statement.ofText_eq_ok.mpr ⟨_, read, tail.isStatement phrase, tail.checked⟩, executed⟩

theorem isRetrieval_get (word preposition : String) {key : List Token} {v : Value}
    (name : String) (value : IsValue key v) :
    IsRetrieval (lookupTokens word preposition key name) (.get v (some name)) :=
  .get word (.single value) (.index preposition name)

theorem isRetrieval_between (word conjunction preposition : String) {left right : List Token}
    {v w : Value} (name : String) (first : IsValue left v) (last : IsValue right w)
    {range : List Token} {inclusive? : Option Bool} (clause : IsRangeClause range inclusive?) :
    IsRetrieval (betweenTokens word conjunction preposition left right name range)
      (.between v w (some name) inclusive?) :=
  .between word conjunction first last (.index preposition name) clause

end

/-- **A literal in brackets is the same key.** Over a collection with an index of the name, texts
that only differ in brackets around the literal of a lookup give the same result unless it is `null`,
and so do texts with brackets around both boundaries of a range, unless its right boundary is `null`
and included, or its left one is `null` and excluded and its right one is not `null`. The lookup of
`null` without brackets gives what the text without a retrieval gives. -/
theorem bracketed_key [CharacterNames] {collection : Collection} {added : List Value}
    (built : collection.Built added) {name : String} {index : Index}
    (found : collection.secondary.find? (.str name) = some index) {t u : Token}
    {left right : Value} (first : t.literal? = some left) (last : u.literal? = some right)
    {clauses : List Token} {s : Statement} (tail : IsTail clauses s) :
    (∀ word preposition plain bracketed,
      IsTokenized plain (lookupTokens word preposition [t] name ++ clauses) →
      IsTokenized bracketed (lookupTokens word preposition (bracket t) name ++ clauses) →
      ∃ result other, Gives collection plain result ∧ Gives collection bracketed other ∧
        (left ≠ .null → result = other) ∧
        (left = .null → s.execute collection = .ok result)) ∧
    ∀ word conjunction preposition range inclusive? plain bracketed,
      IsRangeClause range inclusive? →
      IsTokenized plain
        (betweenTokens word conjunction preposition [t] [u] name range ++ clauses) →
      IsTokenized bracketed
        (betweenTokens word conjunction preposition (bracket t) (bracket u) name range ++ clauses) →
      ∃ result other, Gives collection plain result ∧ Gives collection bracketed other ∧
        ((inclusive? = some false → left ≠ .null ∨ right = .null) →
          (inclusive? = some true → right ≠ .null) → result = other) := by
  constructor
  · intro word preposition plain bracketed read readBracketed
    have filled : name ≠ "" := read.identifier_ne (by simp [lookupTokens])
    have within := tail.gives (isRetrieval_get word preposition name (isValue_bracket first))
      readBracketed (s.execute_get_of_found found filled (List.cons_ne_nil left []))
    have retrieves := isRetrieval_get word preposition name (Read.isValue_of_literal? first)
    by_cases null : left = .null
    · subst null
      have executed := s.execute_get_null collection (some name)
      exact ⟨_, _, tail.gives retrieves read executed, within, fun other => absurd rfl other,
        fun _ => Statement.execute_of_scan tail.scan⟩
    · have single := (isBare_of_literal? first).resolve_left null
      have keyed : left.keyItems ≠ [] := by
        rw [single]
        exact List.cons_ne_nil left []
      have executed := s.execute_get_of_found found filled keyed
      rw [single] at executed
      exact ⟨_, _, tail.gives retrieves read executed, within, fun _ => rfl,
        fun other => absurd other null⟩
  · intro word conjunction preposition range inclusive? plain bracketed clause read readBracketed
    have filled : name ≠ "" := read.identifier_ne (by simp [betweenTokens])
    have plainly := tail.gives
      (isRetrieval_between word conjunction preposition name (Read.isValue_of_literal? first)
        (Read.isValue_of_literal? last) clause) read
      (s.execute_between_of_found found filled left right inclusive?)
    have within := tail.gives
      (isRetrieval_between word conjunction preposition name (isValue_bracket first)
        (isValue_bracket last) clause) readBracketed
      (s.execute_between_of_found found filled (.list [left]) (.list [right]) inclusive?)
    refine ⟨_, _, plainly, within, fun starts stops => ?_⟩
    have selected :
        collection.select { Retrieval.rangeOptions inclusive? with index := .str name } =
          .ok index := Collection.select_of_found found filled rfl
    obtain ⟨inserted, indexed, -⟩ :=
      built.index_built (Collection.mem_indexes_of_select selected)
    have same := Retrieval.between_bracketed indexed (isBare_of_literal? first)
      (isBare_of_literal? last) starts stops
    rw [same]

open scoped CharacterNames

/-- A range that begins with `null` and includes its boundaries, over records of which one lacks the
field, and the lookup of `null`. -/
theorem bracketed_key_of_null :
    let record := fun (id : Int) (a : Value) => Value.map [(.str "id", .int id), (.str "a", a)]
    let byId : Index := .blank ["id"]
    let byA : Index := .blank ["a"]
    let records := [record 1 (.int 2), record 2 .null, record 3 (.int 2)]
    let collection : Collection :=
      ⟨.str "id", byId.insertAll records, [(.str "a", byA.insertAll records)]⟩
    let all : Statement := ⟨.scan, [], [], 0, some 2⟩
    collection.Built records ∧
      (∃ result, Gives collection "get null using a limit 2" result ∧
        all.execute collection = .ok result) ∧
      ∃ result, Gives collection "between null and 2 using a inclusive limit 2" result ∧
        Gives collection "between [null] and [2] using a inclusive limit 2" result := by
  intro record byId byA records collection all
  have start : Collection.empty (.str "id") .null = .ok ⟨.str "id", byId, []⟩ := rfl
  have indexed : (Collection.mk (.str "id") byId []).createIndex (.str "a") .null =
      .ok ⟨.str "id", byId, [(.str "a", byA)]⟩ := rfl
  have built : collection.Built records :=
    (Collection.Built.createIndex (.empty start) indexed).addAll records
  have found : collection.secondary.find? (.str "a") = some (byA.insertAll records) := rfl
  let null : Token := .keyword .null "null"
  let clauses : List Token := [.keyword .limit "limit", .integer 2]
  have tail : IsTail clauses all :=
    ⟨.plain (.clauses .scan .empty .empty .empty (.limit "limit" 2)), rfl, rfl⟩
  obtain ⟨lookup, range⟩ := bracketed_key built found (t := null) (u := .integer 2) rfl rfl tail
  constructor
  · exact built
  constructor
  · have read : IsTokenized "get null using a limit 2"
        (lookupTokens "get" "using" [null] "a" ++ clauses) := ⟨_, by cbv, by cbv⟩
    have within : IsTokenized "get [null] using a limit 2"
        (lookupTokens "get" "using" (bracket null) "a" ++ clauses) := ⟨_, by cbv, by cbv⟩
    obtain ⟨result, -, gives, -, -, scanned⟩ := lookup _ _ _ _ read within
    exact ⟨result, gives, scanned rfl⟩
  · have read : IsTokenized "between null and 2 using a inclusive limit 2"
        (betweenTokens "between" "and" "using" [null] [.integer 2] "a"
          [.keyword .inclusive "inclusive"] ++ clauses) := ⟨_, by cbv, by cbv⟩
    have within : IsTokenized "between [null] and [2] using a inclusive limit 2"
        (betweenTokens "between" "and" "using" (bracket null) (bracket (.integer 2)) "a"
          [.keyword .inclusive "inclusive"] ++ clauses) := ⟨_, by cbv, by cbv⟩
    obtain ⟨result, other, gives, givesWithin, same⟩ :=
      range _ _ _ _ _ _ _ (.inclusive "inclusive") read within
    have equal : result = other := by
      refine same (fun excluded => ?_) fun _ missing => ?_
      · cases excluded
      · cases missing
    exact ⟨result, gives, equal ▸ givesWithin⟩

/-- With `null` the brackets matter: to a lookup, to a range up to `null` that includes it, and to a
range from `null` on that excludes it. -/
theorem bracketed_key_ne_of_null :
    let record := fun (id : Int) (a : Value) => Value.map [(.str "id", .int id), (.str "a", a)]
    let byId : Index := .blank ["id"]
    let byA : Index := .blank ["a"]
    let records := [record 1 (.int 2), record 2 .null]
    let collection : Collection :=
      ⟨.str "id", byId.insertAll records, [(.str "a", byA.insertAll records)]⟩
    ∀ texts ∈ [("get null using a", "get [null] using a"),
        ("between 1 and null using a inclusive", "between [1] and [null] using a inclusive"),
        ("between null and 9 using a exclusive", "between [null] and [9] using a exclusive")],
      ∃ result other, Gives collection texts.1 result ∧ Gives collection texts.2 other ∧
        result.rows ≠ other.rows := by
  intro record byId byA records collection texts member
  let all : Statement := ⟨.scan, [], [], 0, none⟩
  have found : collection.secondary.find? (.str "a") = some (byA.insertAll records) := rfl
  have filled : "a" ≠ "" := by decide
  have rows : ∀ {rows others : List Value}, rows.length ≠ others.length →
      (Result.ofRecords (Filter.apply all.filterEntries rows)).rows ≠
        (Result.ofRecords (Filter.apply all.filterEntries others)).rows := by
    intro rows others lengths same
    have kept (records : List Value) :
        ((Filter.apply all.filterEntries records).map Result.rowOf).length = records.length := by
      rw [Statement.apply_filterEntries rfl]
      simp [Statement.rowsOf, all, Condition.allow, sliceFrom, slicePosition]
    have sizes := congrArg List.length same
    exact lengths ((kept rows).symm.trans (sizes.trans (kept others)))
  simp only [List.mem_cons, List.not_mem_nil, or_false] at member
  rcases member with rfl | rfl | rfl
  · have scanned := all.execute_get_null collection (some "a")
    have keyed : (Value.list [.null]).keyItems ≠ [] := List.cons_ne_nil _ _
    refine ⟨_, _, ⟨_, ?_, scanned⟩, ⟨_, ?_, all.execute_get_of_found found filled keyed⟩, rows ?_⟩
    · cbv
    · cbv
    · cbv
  · refine ⟨_, _, ⟨_, ?_, all.execute_between_of_found found filled (.int 1) .null (some true)⟩,
      ⟨_, ?_, all.execute_between_of_found found filled (.list [.int 1]) (.list [.null])
        (some true)⟩, rows ?_⟩
    · cbv
    · cbv
    · cbv
  · refine ⟨_, _, ⟨_, ?_, all.execute_between_of_found found filled .null (.int 9) (some false)⟩,
      ⟨_, ?_, all.execute_between_of_found found filled (.list [.null]) (.list [.int 9])
        (some false)⟩, rows ?_⟩
    · cbv
    · cbv
    · cbv

end Itq

end RecordQuery

import Mathlib
import RecordQuery.Proofs.Collection.Consistency
import RecordQuery.Proofs.Index.Lookup
import RecordQuery.Proofs.Sorting

/-!
# Numeric ranges by index and by scan

An index orders any values by kind and then by number or text; an operator compares only what has
an order in itself and says no to the rest. Between two numbers both ways agree but on decimals
(`Value.inRange_eq_evaluate`): a number is compared by its place on either way, a missing value lies
before every number in the index, and whatever has a text lies behind. Each of the two bounds alone
would not do, since a text lies behind the left one. A decimal lies behind as well, since a key
holds its text, while an operator compares it with the bounds.

The records of a range of a secondary index are therefore those that a scan of the collection keeps
under the two operators, less those with a decimal there and less what the index misses
(`Collection.Reached.between_perm_scan`).
-/

namespace RecordQuery

/-! ## One value -/

/-- Whether the value is a decimal. -/
def Value.isDecimal : Value → Bool
  | .decimal _ _ => true
  | _ => false

/-- A bound of a numeric range. -/
structure Value.IsBound (v : Value) : Prop where
  numeric : v.numeric?.isSome
  proper : v.isNaN = false

theorem Value.IsBound.toKey_eq {v : Value} (bound : v.IsBound) : v.toKey = [.ofValue v] := by
  have numeric := bound.numeric
  cases v <;> simp_all [toKey, keyItems, numeric?]

theorem Value.IsBound.isPlaced_toKey {v : Value} (bound : v.IsBound) : v.toKey.IsPlaced := by
  rw [bound.toKey_eq, Key.IsPlaced, List.forall_mem_singleton]
  exact KeyPart.isPlaced_ofValue bound.proper

/-- The operator that asks for more than a bound, or for at least the bound. -/
def Operator.above (inclusive : Bool) : Operator :=
  ⟨if inclusive then .greaterOrEqual else .greater, .none⟩

/-- The operator that asks for less than a bound, or for at most the bound. -/
def Operator.below (inclusive : Bool) : Operator :=
  ⟨if inclusive then .lessOrEqual else .less, .none⟩

/-- Whether a value lies between two bounds by the operators that ask for it. -/
def Operator.between (left right : Value) (leftInclusive rightInclusive : Bool) (v : Value) :
    Bool :=
  (above leftInclusive).evaluate v left && (below rightInclusive).evaluate v right

theorem Key.leadsAtMost_singleton (part bound : KeyPart) (inclusive : Bool) :
    Key.leadsAtMost [part] [bound] inclusive =
      if inclusive then (part.compare bound).isLE else (part.compare bound).isLT := by
  simp [leadsAtMost, Key.compare, Ordering.then_eq]

/-- A value that is no number of a key, and no decimal either, is without order with numbers. -/
theorem Value.quantity?_eq_none {v : Value} (other : v.numeric? = none)
    (plain : v.isDecimal = false) : v.quantity? = none := by
  cases v with
  | bool | int | float => cases other
  | decimal => cases plain
  | _ => rfl

/-- Between two numbers, the order of an index and the operators of a filter agree on any value but
a decimal, which lies in no range of an index. -/
theorem Value.inRange_eq_evaluate {v left right : Value} (proper : v.isNaN = false)
    (leftBound : left.IsBound) (rightBound : right.IsBound) (leftInclusive rightInclusive : Bool) :
    (!Key.leadsAtMost [.ofValue v] [.ofValue left] (!leftInclusive) &&
        Key.leadsAtMost [.ofValue v] [.ofValue right] rightInclusive) =
      (!v.isDecimal && Operator.between left right leftInclusive rightInclusive v) := by
  obtain ⟨l, leftNumeric⟩ := Option.isSome_iff_exists.mp leftBound.numeric
  obtain ⟨r, rightNumeric⟩ := Option.isSome_iff_exists.mp rightBound.numeric
  rw [Key.leadsAtMost_singleton, Key.leadsAtMost_singleton]
  cases numeric : v.numeric? with
  | some m =>
    have leftOrder := compare?_eq_some numeric leftNumeric proper leftBound.proper
    have rightOrder := compare?_eq_some numeric rightNumeric proper rightBound.proper
    generalize (KeyPart.ofValue v).compare (KeyPart.ofValue left) = fromLeft at leftOrder ⊢
    generalize (KeyPart.ofValue v).compare (KeyPart.ofValue right) = fromRight at rightOrder ⊢
    have lower : (!if (!leftInclusive) = true then fromLeft.isLE else fromLeft.isLT) =
        (Operator.above leftInclusive).evaluate v left := by
      cases leftInclusive <;> cases fromLeft <;> simp [Operator.above, Operator.evaluate, leftOrder]
    have upper : (if rightInclusive = true then fromRight.isLE else fromRight.isLT) =
        (Operator.below rightInclusive).evaluate v right := by
      cases rightInclusive <;> cases fromRight <;>
        simp [Operator.below, Operator.evaluate, rightOrder]
    have plain : v.isDecimal = false := by cases v <;> first | rfl | cases numeric
    rw [lower, upper, plain]
    rfl
  | none =>
    have refused : (!v.isDecimal &&
        Operator.between left right leftInclusive rightInclusive v) = false := by
      cases decimal : v.isDecimal with
      | true => rfl
      | false =>
        have leftOrder : v.compare? left = none := by
          rw [compare?_of_quantity (quantity?_of_numeric leftNumeric),
            quantity?_eq_none numeric decimal]
          rfl
        cases leftInclusive <;>
          simp [Operator.between, Operator.above, Operator.evaluate, leftOrder]
    rw [refused, KeyPart.ofValue_of_numeric leftNumeric, KeyPart.ofValue_of_numeric rightNumeric]
    -- A missing value lies before the left bound, a text behind the right one.
    rcases KeyPart.ofValue_of_not_numeric numeric with missing | ⟨s, text⟩
    · rw [missing]
      cases leftInclusive <;> simp [KeyPart.compare]
    · rw [text]
      cases rightInclusive <;> simp [KeyPart.compare]

/-! ## The scan -/

namespace Filter

/-- The filter that asks a field to lie between two bounds. -/
def ofRange (field : String) (left right : Value) (leftInclusive rightInclusive : Bool) :
    Entries Value :=
  [(.str "where", .map [(.str field, .map [
    (.str (if leftInclusive then ">=" else ">"), left),
    (.str (if rightInclusive then "<=" else "<"), right)])])]

theorem passes_ofRange (field : String) (left right : Value) (leftInclusive rightInclusive : Bool)
    (record : Value) :
    Clause.passes record
        (Clause.ofEntries (whereEntries (ofRange field left right leftInclusive rightInclusive))) =
      Operator.between left right leftInclusive rightInclusive
        (record.lookup (.ofString field)) := by
  cases leftInclusive <;> cases rightInclusive <;> rfl

theorem apply_ofRange (field : String) (left right : Value) (leftInclusive rightInclusive : Bool)
    (records : List Value) :
    apply (ofRange field left right leftInclusive rightInclusive) records =
      records.filter fun record =>
        Operator.between left right leftInclusive rightInclusive
          (record.lookup (.ofString field)) := by
  have keys : sortKeys (ofRange field left right leftInclusive rightInclusive) = [] := rfl
  have skip : skipCount (ofRange field left right leftInclusive rightInclusive) = .null := rfl
  have limit : given (ofRange field left right leftInclusive rightInclusive) "limit" = .null := rfl
  unfold apply
  simp only [keys, skip, limit, SortKey.sort_nil, passes_ofRange]
  rfl

end Filter

/-! ## The range -/

namespace Index

variable {index : Index} {inserted : List Value} {field : String}

/-- The unpaged range of an index over one field, between numbers, keeps what the operators keep,
less the records with a decimal there. -/
theorem Built.between_eq_filter_evaluate (built : Built index inserted)
    (single : index.fields = [.str field])
    (proper : ∀ record ∈ inserted, (record.lookup (.ofString field)).isNaN = false)
    {left right : Value} (leftBound : left.IsBound) (rightBound : right.IsBound)
    {options : Options} (offset : options.offset.isNumber = false)
    (limit : options.limit.isNumber = false) :
    index.between left right options = index.toList.filter fun record =>
      !(record.lookup (.ofString field)).isDecimal &&
        Operator.between left right options.leftInclusive options.rightInclusive
          (record.lookup (.ofString field)) := by
  have paths : index.paths = [.ofString field] := built.paths_of_single single rfl
  have keys : ∀ record, index.keyOf record = [.ofValue (record.lookup (.ofString field))] := by
    intro record
    unfold keyOf keyValues
    rw [paths]
    rfl
  have properKeys : ∀ record ∈ inserted, index.HasProperKey record := by
    intro record member
    unfold HasProperKey Value.IsProperKey keyValues
    rw [paths]
    simpa [Value.keyItems] using proper record member
  rw [between_eq_slice index left right offset limit,
    built.slice_eq_filter properKeys leftBound.isPlaced_toKey rightBound.isPlaced_toKey]
  apply List.filter_congr
  intro record member
  rw [keys, leftBound.toKey_eq, rightBound.toKey_eq]
  exact Value.inRange_eq_evaluate (proper record (built.perm.mem_iff.mp member)) leftBound
    rightBound options.leftInclusive options.rightInclusive

end Index

/-- A range that is asked of a query alone is that of the index chosen. -/
theorem Query.oneShot_between {collection : Collection} {index : Index} {left right given : Value}
    {named : Entries Value} {options : Options} (told : Options.ofValue given named = .ok options)
    (selected : collection.select options = .ok index) :
    Query.oneShot collection (.between left right given named) =
      .ok (.list (index.between left right options)) := by
  have ranged : Query.between collection .empty left right given named =
      .ok (.holding (index.between left right options)) :=
    bind_eq_ok.mpr ⟨(), rfl, bind_eq_ok.mpr ⟨options, told, bind_eq_ok.mpr ⟨index, selected, rfl⟩⟩⟩
  unfold Query.oneShot Query.perform
  dsimp only
  rw [ranged]
  rfl

namespace Collection

variable {collection : Collection} {taken split : List Value} {field : String}

/-- **A numeric range by index is the scan under two operators, less the decimals.** In every
collection with a secondary index over one field alone, whatever its records hold there but
not-a-number, the unpaged range of the index between two numbers has those of the records that a
scan keeps under the operators for the two bounds which hold no decimal there, and just as often. It
may miss only records on which a load broke off in a secondary index. A query whose options choose
the index gives that range. -/
theorem Reached.between_perm_scan (reached : Reached collection taken split) {name : Value}
    {index : Index} (held : collection.secondary.find? name = some index)
    (single : index.fields = [.str field])
    (proper : ∀ record ∈ taken, (record.lookup (.ofString field)).isNaN = false)
    {left right : Value} (leftBound : left.IsBound) (rightBound : right.IsBound)
    {options : Options} (offset : options.offset.isNumber = false)
    (limit : options.limit.isNumber = false) :
    ∃ kept missed,
      Query.oneShot collection (.filter (.value (.map (Filter.ofRange field left right
        options.leftInclusive options.rightInclusive))) .null) = .ok (.list kept) ∧
      missed.Sublist split ∧
      (index.between left right options ++ missed).Perm
        (kept.filter fun record => !(record.lookup (.ofString field)).isDecimal) ∧
      ∀ (given : Value) (named : Entries Value), Options.ofValue given named = .ok options →
        collection.select options = .ok index →
          Query.oneShot collection (.between left right given named) =
            .ok (.list (index.between left right options)) := by
  have listed : index ∈ collection.indexes := by
    obtain ⟨entry, found, rfl⟩ := Option.map_eq_some_iff.mp held
    exact List.mem_cons_of_mem _ (List.mem_map_of_mem (List.mem_of_find?_eq_some found))
  obtain ⟨inserted, missed, built, few, perm⟩ := (reached.holds index listed).built
  have properInserted : ∀ record ∈ inserted,
      (record.lookup (.ofString field)).isNaN = false := fun record member =>
    proper record (perm.mem_iff.mp (List.mem_append_left missed member))
  have parts : (index.toList ++ missed).Perm collection.primary.toList :=
    ((built.perm.append_right missed).trans perm).trans reached.primary.perm.symm
  refine ⟨Filter.apply (Filter.ofRange field left right options.leftInclusive
      options.rightInclusive) collection.primary.toList,
    missed.filter fun record => !(record.lookup (.ofString field)).isDecimal &&
      Operator.between left right options.leftInclusive options.rightInclusive
        (record.lookup (.ofString field)),
    rfl, List.filter_sublist.trans few, ?_, ?_⟩
  · rw [Filter.apply_ofRange, built.between_eq_filter_evaluate single properInserted leftBound
      rightBound offset limit, List.filter_filter, ← List.filter_append]
    exact parts.filter _
  · intro given named told selected
    exact Query.oneShot_between told selected

/-- A truth value belongs to the range from its own value on, and a number between the ends; the
number at the other end, a text, a decimal and a missing value do not, nor does a record whose id
raised before it came into the index. -/
theorem Reached.between_perm_scan_of_kinds :
    let record := fun (id : Int) (age : Value) =>
      Value.map [(.str "id", .int id), (.str "age", age)]
    let yes := record 4 (.bool true)
    let half := record 5 (.float (.finite false 3 (-1)))
    let two := record 3 (.int 2)
    let text := record 2 (.str "1")
    let decimal := record 6 (.decimal false ⟨15, -1⟩)
    let missing := Value.map [(.str "id", .int 1)]
    let records := [half, two, text, decimal, yes, missing]
    let byId : Index := .blank ["id"]
    let byAge : Index := .blank ["age"]
    let index := byAge.insertAll records
    let primary := (byId.insertAll records).insert yes
    let collection : Collection := ⟨.str "id", primary, [(.str "age", index)]⟩
    let left := Value.int 1
    let right := Value.float (.finite false 1 1)
    let options : Options := ⟨.str "age", true, false, .null, .null, []⟩
    Reached collection (records ++ [yes]) [yes] ∧
      collection.secondary.find? (.str "age") = some index ∧
      (∀ record ∈ records ++ [yes], (record.lookup (.ofString "age")).isNaN = false) ∧
      left.IsBound ∧ right.IsBound ∧
      index.between left right options = [yes, half] ∧
      ∃ kept missed,
        Query.oneShot collection (.filter (.value (.map
          (Filter.ofRange "age" left right true false))) .null) = .ok (.list kept) ∧
        missed.Sublist [yes] ∧
        (index.between left right options ++ missed).Perm
          (kept.filter fun record => !(record.lookup (.ofString "age")).isDecimal) := by
  intro record yes half two text decimal missing records byId byAge index primary collection left
    right options
  let code : CallCode := fun turn =>
    ⟨fun _ _ => if turn = 1 then some (.callback "age") else none, fun _ => none⟩
  let blank : Collection := ⟨.str "id", byId, [(.str "age", byAge)]⟩
  have start : Collection.empty (.str "id") .null = .ok ⟨.str "id", byId, []⟩ := rfl
  have accepted : (Collection.mk (.str "id") byId []).createIndex (.str "age") .null = .ok blank :=
    rfl
  have built := ((Built.empty start).createIndex accepted).addAll records
  have place : (blank.addAll records).breakOff? code [yes] = some (0, 1, .callback "age") := by
    rw [← addEach_const, breakOff?_addEach]
    cbv
  have loaded : ((blank.addAll records).load code ⟨[yes], none⟩).1 = collection := by
    rw [load_eq]
    unfold takenBy
    rw [place]
    rfl
  have reached : Reached collection (records ++ [yes]) [yes] := by
    rw [← loaded]
    exact Reached.load_broken built code ⟨[yes], none⟩ place
  have held : collection.secondary.find? (.str "age") = some index := by
    rw [Collection.secondary]
    rfl
  have proper : ∀ record ∈ records ++ [yes], (record.lookup (.ofString "age")).isNaN = false := by
    simp only [records]
    decide
  have leftBound : left.IsBound := ⟨rfl, rfl⟩
  have rightBound : right.IsBound := ⟨rfl, rfl⟩
  have single : index.fields = [.str "age"] := (byAge.insertAll_frame _).1
  have offset : options.offset.isNumber = false := rfl
  have limit : options.limit.isNumber = false := rfl
  obtain ⟨kept, missed, scanned, few, perm, -⟩ :=
    reached.between_perm_scan held single proper leftBound rightBound offset limit
  have ranged : index.between left right options = [yes, half] := by
    change (byAge.insertAll records).between left right options = _
    cbv
  exact ⟨reached, held, proper, leftBound, rightBound, ranged, kept, missed, scanned, few, perm⟩

/-- A decimal between the bounds is kept by the scan and not in the range, and so is a record that
raised when it came into the index. A filter that holds the operators outside `where` keeps no
record. -/
theorem between_ne_scan :
    let record := fun age : Value => Value.map [(.str "id", .int 1), (.str "age", age)]
    let two := record (.int 2)
    let decimal := record (.decimal false ⟨15, -1⟩)
    let code : CallCode := fun turn =>
      ⟨fun _ _ => if turn = 1 then some (.callback "age") else none, fun _ => none⟩
    let byId : Index := .blank ["id"]
    let byAge : Index := .blank ["age"]
    let blank : Collection := ⟨.str "id", byId, [(.str "age", byAge)]⟩
    let holding := fun record => blank.addAll [record]
    let broken := (blank.load code ⟨[two], none⟩).1
    let range := fun collection : Collection =>
      Query.oneShot collection (.between (.int 1) (.int 3) .null [(.str "index", .str "age")])
    let scan := fun (collection : Collection) (filter : Entries Value) =>
      Query.oneShot collection (.filter (.value (.map filter)) .null)
    let filter := Filter.ofRange "age" (.int 1) (.int 3) true false
    let bare : Entries Value := [(.str "age", .map [(.str ">=", .int 1), (.str "<", .int 3)])]
    (holding decimal).Built [decimal] ∧
      range (holding decimal) = .ok (.list []) ∧
      scan (holding decimal) filter = .ok (.list [decimal]) ∧
      Reached broken [two] [two] ∧
      range broken = .ok (.list []) ∧ scan broken filter = .ok (.list [two]) ∧
      (holding two).Built [two] ∧
      range (holding two) = .ok (.list [two]) ∧ scan (holding two) bare = .ok (.list []) := by
  intro record two decimal code byId byAge blank holding broken range scan filter bare
  have start : Collection.empty (.str "id") .null = .ok ⟨.str "id", byId, []⟩ := rfl
  have indexed : (Collection.mk (.str "id") byId []).createIndex (.str "age") .null = .ok blank :=
    rfl
  have built : blank.Built [] := (Built.empty start).createIndex indexed
  have place : blank.breakOff? code [two] = some (0, 1, .callback "age") := by cbv
  refine ⟨built.addAll [decimal], ?_, ?_, Reached.load_broken built code ⟨[two], none⟩ place, ?_, ?_,
    built.addAll [two], ?_, ?_⟩ <;>
    change Query.oneShot _ _ = _ <;> cbv

end Collection

end RecordQuery

import Mathlib
import RecordQuery.Proofs.Collection.Consistency
import RecordQuery.Proofs.Index.Range
import RecordQuery.Query.Step

/-!
# Several keys at once

A query for several keys concatenates what one index has for each of them, and so do the queries for
the keys taken singly, but for a key without components: alone it gives all records in the order of
the primary index, whatever index is chosen, and among several keys it gives them in the order of the
chosen one (`Query.getAll_eq_flatMap_get`).
-/

namespace RecordQuery

/-- Images of the same lengths concatenate to the same list only if they are the same. -/
theorem flatMap_eq_flatMap_iff {α β : Type} {f g : α → List β} {items : List α}
    (lengths : ∀ item ∈ items, (f item).length = (g item).length) :
    items.flatMap f = items.flatMap g ↔ ∀ item ∈ items, f item = g item := by
  constructor
  · intro same
    induction items with
    | nil => exact List.forall_mem_nil _
    | cons item rest ih =>
      rw [List.flatMap_cons, List.flatMap_cons] at same
      obtain ⟨first, others⟩ := List.append_inj same (lengths item List.mem_cons_self)
      exact List.forall_mem_cons.mpr
        ⟨first, ih (fun later member => lengths later (List.mem_cons_of_mem item member)) others⟩
  · exact List.flatMap_congr

namespace BinarySearch.IsCut

variable {α : Type} {test : α → Bool} {items : List α} {position : Nat}

/-- A cut by a test that no item passes lies before all of them. -/
theorem eq_zero (isCut : IsCut test items position) (fails : ∀ item, test item = false) :
    position = 0 := by
  cases position with
  | zero => rfl
  | succ before =>
    have inside : before < items.length := isCut.within
    have passes := isCut.before before items[before] rfl (List.getElem?_eq_getElem inside)
    rw [fails] at passes
    cases passes

/-- A cut by a test that every item passes lies behind all of them. -/
theorem eq_length (isCut : IsCut test items position) (passes : ∀ item, test item = true) :
    position = items.length := by
  by_contra other
  have inside := Nat.lt_of_le_of_ne isCut.within other
  have fails := isCut.atPosition items[position] (List.getElem?_eq_getElem inside)
  rw [passes] at fails
  cases fails

end BinarySearch.IsCut

/-- No record lies before the key without components. -/
theorem Index.Built.bound_nil {index : Index} {inserted : List Value}
    (built : Built index inserted) : index.bound [] false = 0 :=
  (built.isCut_bound [] false).eq_zero fun _ => rfl

/-- A key without components matches every record of an index. -/
theorem Index.Built.get_of_blank {index : Index} {inserted : List Value} {key : Value}
    (built : Built index inserted) (blank : key.keyItems = []) : index.get key = index.toList := by
  have boundary : key.toKey = [] := List.map_eq_nil_iff.mpr blank
  have stop : index.bound [] true = index.records.length :=
    (built.isCut_bound [] true).eq_length fun _ => rfl
  unfold get slice
  rw [boundary, built.bound_nil, stop, List.take_length, List.drop_zero]
  rfl

namespace Query

variable {collection : Collection} {index : Index} {options : Options} {named : Entries Value}
  {keys : List Value} {given? : Option (Entries Value)}

/-! ## One key -/

/-- The options that a mapping gives, where there is one. -/
def givenOptions (given? : Option (Entries Value)) : Value := .ofOption (given?.map .map)

/-- What a query for one key gives over a chosen index. -/
def recordsOfKey (collection : Collection) (index : Index) (key : Value) : List Value :=
  if key.keyItems.isEmpty then collection.primary.toList else index.get key

theorem oneShot_get {given : Value} (told : Options.ofValue given named = .ok options)
    (selected : collection.select options = .ok index) (key : Value) :
    oneShot collection (.get key given named) =
      .ok (.list (recordsOfKey collection index key)) := by
  have found : get collection empty key given named =
      .ok (holding (recordsOfKey collection index key)) := by
    refine bind_eq_ok.mpr ⟨(), rfl, ?_⟩
    unfold recordsOfKey
    split
    · rfl
    · have same : index.get (.list key.keyItems) = index.get key := rfl
      rw [← same]
      exact bind_eq_ok.mpr ⟨options, told, bind_eq_ok.mpr ⟨index, selected, rfl⟩⟩
  unfold oneShot perform
  dsimp only
  rw [found]
  rfl

/-! ## Several keys -/

/-- The arguments that name keys, and options by a mapping behind them if there is one. -/
def argumentsOf (keys : List Value) (given? : Option (Entries Value)) : List Value :=
  keys ++ (given?.map Value.map).toList

theorem splitOptions_concat (keys : List Value) (entries : Entries Value) :
    splitOptions (keys ++ [.map entries]) = (keys, .map entries) := by
  unfold splitOptions
  rw [List.getLast?_concat]
  dsimp only
  rw [List.dropLast_concat]

/-- Options are told from keys, unless the last key is a mapping. -/
theorem splitOptions_argumentsOf (unlike : ∀ entries, keys.getLast? ≠ some (.map entries))
    (given? : Option (Entries Value)) :
    splitOptions (argumentsOf keys given?) = (keys, givenOptions given?) := by
  unfold argumentsOf
  cases given? with
  | none =>
    rw [Option.map_none, Option.toList_none, List.append_nil]
    unfold splitOptions
    split
    · rename_i entries last
      exact absurd last (unlike entries)
    · rfl
  | some entries => exact splitOptions_concat keys entries

theorem oneShot_getAll (filled : keys ≠ [])
    (unlike : ∀ entries, keys.getLast? ≠ some (.map entries))
    (told : Options.ofValue (givenOptions given?) named = .ok options)
    (selected : collection.select options = .ok index) :
    oneShot collection (.getAll (argumentsOf keys given?) named) =
      .ok (.list (keys.flatMap index.get)) := by
  have found : getAll collection empty (argumentsOf keys given?) named =
      .ok (holding (keys.flatMap index.get)) := by
    refine bind_eq_ok.mpr ⟨(), rfl, ?_⟩
    rw [splitOptions_argumentsOf unlike]
    dsimp only
    rw [List.isEmpty_eq_false_iff.mpr filled, if_neg Bool.false_ne_true]
    exact bind_eq_ok.mpr ⟨options, told, bind_eq_ok.mpr ⟨index, selected, rfl⟩⟩
  unfold oneShot perform
  dsimp only
  rw [found]
  rfl

end Query

theorem Collection.mem_indexes_of_select {collection : Collection} {options : Options}
    {index : Index} (selected : collection.select options = .ok index) :
    index ∈ collection.indexes := by
  unfold select at selected
  split at selected
  · cases selected
    exact List.mem_cons_self
  · split at selected
    · cases selected
    · split at selected
      · rename_i held
        cases selected
        obtain ⟨entry, found, rfl⟩ := Option.map_eq_some_iff.mp held
        exact List.mem_cons_of_mem _ (List.mem_map_of_mem (List.mem_of_find?_eq_some found))
      · cases selected

namespace Query

variable {collection : Collection} {added : List Value} {index : Index} {options : Options}
  {named : Entries Value} {keys : List Value} {given? : Option (Entries Value)}

/-- What an index has for a key is what a query for the key gives, but maybe for the order of all
records. -/
theorem perm_recordsOfKey (built : collection.Built added)
    (selected : collection.select options = .ok index) (key : Value) :
    (index.get key).Perm (recordsOfKey collection index key) := by
  have member := Collection.mem_indexes_of_select selected
  obtain ⟨inserted, indexed, -⟩ := built.index_built member
  unfold recordsOfKey
  split
  · rename_i blank
    rw [indexed.get_of_blank (List.isEmpty_iff.mp blank)]
    exact built.perm member
  · exact .refl _

theorem get_eq_recordsOfKey_iff (built : collection.Built added)
    (selected : collection.select options = .ok index) (key : Value) :
    index.get key = recordsOfKey collection index key ↔
      (key.keyItems = [] → index.toList = collection.primary.toList) := by
  obtain ⟨inserted, indexed, -⟩ := built.index_built (Collection.mem_indexes_of_select selected)
  unfold recordsOfKey
  split
  · rename_i blank
    rw [indexed.get_of_blank (List.isEmpty_iff.mp blank)]
    exact (imp_iff_right (List.isEmpty_iff.mp blank)).symm
  · rename_i filled
    exact iff_of_true rfl fun blank => absurd (List.isEmpty_iff.mpr blank) filled

/-- **Several keys give what each gives, up to the order of a key without components.** Over an index
that exists, the query for several keys has the records of the queries for each of them, in the order
of the arguments and with duplicates kept. It has them in the same order as well just when no key
lacks components or the chosen index lists all records as the primary one does. -/
theorem getAll_eq_flatMap_get (built : collection.Built added) (filled : keys ≠ [])
    (unlike : ∀ entries, keys.getLast? ≠ some (.map entries))
    (told : Options.ofValue (givenOptions given?) named = .ok options)
    (selected : collection.select options = .ok index) :
    ∃ (gets : Value → List Value) (all : List Value),
      (∀ key, oneShot collection (.get key (givenOptions given?) named) =
        .ok (.list (gets key))) ∧
      oneShot collection (.getAll (argumentsOf keys given?) named) = .ok (.list all) ∧
      (∃ parts, List.Forall₂ (fun key part => part.Perm (gets key) ∧
        (key.keyItems ≠ [] → part = gets key)) keys parts ∧ all = parts.flatten) ∧
      (all = keys.flatMap gets ↔
        (∀ key ∈ keys, key.keyItems ≠ []) ∨ index.toList = collection.primary.toList) := by
  refine ⟨recordsOfKey collection index, keys.flatMap index.get, oneShot_get told selected,
    oneShot_getAll filled unlike told selected, ⟨keys.map index.get, ?_, List.flatMap_def⟩, ?_⟩
  · rw [List.forall₂_map_right_iff, List.forall₂_same]
    intro key _
    refine ⟨perm_recordsOfKey built selected key, fun shaped => ?_⟩
    exact (get_eq_recordsOfKey_iff built selected key).mpr fun blank => absurd blank shaped
  · rw [flatMap_eq_flatMap_iff fun key _ => (perm_recordsOfKey built selected key).length_eq]
    simp only [get_eq_recordsOfKey_iff built selected]
    constructor
    · intro same
      by_cases shaped : ∀ key ∈ keys, key.keyItems ≠ []
      · exact .inl shaped
      · push Not at shaped
        obtain ⟨key, member, blank⟩ := shaped
        exact .inr (same key member blank)
    · rintro (shaped | same) key member blank
      · exact absurd blank (shaped key member)
      · exact same

/-- A number, the empty tuple and a list of two, by an index that lists all records as the primary one
does not: the records for the empty tuple come in another order than alone. -/
theorem getAll_eq_flatMap_get_of_shapes :
    let record := fun (id a : Int) (b : String) => Value.map
      [(.str "id", .int id), (.str "a", .int a), (.str "b", .str b)]
    let byId : Index := .blank ["id"]
    let byBoth : Index := .blank ["a", "b"]
    let records := [record 1 5 "y", record 2 5 "x", record 3 1 "x"]
    let primary := byId.insertAll records
    let index := byBoth.insertAll primary.toList
    let collection : Collection := ⟨.str "id", primary, [(.str "both", index)]⟩
    let keys := [.int 5, .tuple [], .list [.int 5, .str "x"], .int 5]
    let given? := some [(.str "index", .str "both")]
    let options : Options := ⟨.str "both", true, false, .null, .null, []⟩
    collection.Built records ∧ keys ≠ [] ∧
      (∀ entries, keys.getLast? ≠ some (.map entries)) ∧
      Options.ofValue (givenOptions given?) [] = .ok options ∧
      collection.select options = .ok index ∧
      ∃ (gets : Value → List Value) (all : List Value),
        (∀ key, oneShot collection (.get key (givenOptions given?) []) = .ok (.list (gets key))) ∧
        oneShot collection (.getAll (argumentsOf keys given?) []) = .ok (.list all) ∧
        all ≠ keys.flatMap gets := by
  intro record byId byBoth records primary index collection keys given? options
  have start : Collection.empty (.str "id") .null = .ok ⟨.str "id", byId, []⟩ := rfl
  have accepted : (Collection.mk (.str "id") primary []).createIndex (.str "both")
      (.list [.str "a", .str "b"]) = .ok collection :=
    Collection.createIndex_eq_ok.mpr ⟨byBoth, rfl, rfl, rfl⟩
  have built : collection.Built records :=
    .createIndex ((Collection.Built.empty start).addAll records) accepted
  have filled : keys ≠ [] := List.cons_ne_nil _ _
  have unlike : ∀ entries, keys.getLast? ≠ some (.map entries) := by
    intro entries same
    cases same
  have told : Options.ofValue (givenOptions given?) [] = .ok options := rfl
  have selected : collection.select options = .ok index := rfl
  obtain ⟨gets, all, each, every, -, order⟩ :=
    getAll_eq_flatMap_get built filled unlike told selected
  refine ⟨built, filled, unlike, told, selected, gets, all, each, every, fun same => ?_⟩
  have listed : index.toList = [record 3 1 "x", record 2 5 "x", record 1 5 "y"] := by
    change (byBoth.insertAll (byId.insertAll records).toList).toList = _
    cbv
  have primaryListed : primary.toList = records := by
    change (byId.insertAll records).toList = _
    cbv
  rcases order.mp same with shaped | alike
  · exact shaped (.tuple []) (List.mem_cons_of_mem _ List.mem_cons_self) rfl
  · rw [listed] at alike
    change _ = primary.toList at alike
    rw [primaryListed] at alike
    simp [records, record] at alike

/-- The empty key over an index that lists the records in another order than the primary one. -/
theorem getAll_ne_flatMap_get :
    let one := Value.map [(.str "id", .int 1), (.str "a", .int 2)]
    let two := Value.map [(.str "id", .int 2), (.str "a", .int 1)]
    let byId : Index := .blank ["id"]
    let byA : Index := .blank ["a"]
    let collection : Collection :=
      ⟨.str "id", byId.insertAll [one, two], [(.str "a", byA.insertAll [one, two])]⟩
    let named := [(Value.str "index", .str "a")]
    collection.Built [one, two] ∧
      oneShot collection (.getAll [.list []] named) = .ok (.list [two, one]) ∧
      oneShot collection (.get (.list []) .null named) = .ok (.list [one, two]) ∧
      [two, one] ≠ [one, two] := by
  intro one two byId byA collection named
  have start : Collection.empty (.str "id") .null = .ok ⟨.str "id", byId, []⟩ := rfl
  have listed : (byId.insertAll [one, two]).toList = [one, two] := by
    cbv
  have accepted : (Collection.mk (.str "id") (byId.insertAll [one, two]) []).createIndex
      (.str "a") .null = .ok collection := by
    refine Collection.createIndex_eq_ok.mpr ⟨byA, rfl, rfl, ?_⟩
    rw [listed]
    rfl
  refine ⟨.createIndex ((Collection.Built.empty start).addAll [one, two]) accepted, ?_, ?_, ?_⟩
  · cbv
  · cbv
  · simp [one, two]

end Query

end RecordQuery

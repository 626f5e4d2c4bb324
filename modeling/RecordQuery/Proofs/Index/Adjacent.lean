import Mathlib
import RecordQuery.Proofs.Index.Lookup
import RecordQuery.Proofs.Index.Order

/-!
# Adjacent ranges

A range that ends before a boundary and one that begins at it meet without gap or overlap, however
many components the boundaries have. Cutting a key to the length of a boundary does not change
whether it is less (`Key.leadsAtMost_exclusive`), so the bounds before ever greater boundaries follow
on each other (`Built.bound_le_bound`), and the stretches between them join
(`Built.between_append_between`).
-/

namespace RecordQuery

namespace Key

theorem rankOrder_take_self_isLE (key : Key) (n : Nat) : (rankOrder (key.take n) key).isLE := by
  induction key generalizing n with
  | nil =>
    rw [List.take_nil]
    rfl
  | cons part key ih =>
    cases n with
    | zero => rfl
    | succ n =>
      rw [List.take_succ_cons, rankOrder, List.compareLex_cons_cons, Ordering.isLE_then_iff_or]
      exact .inr ⟨Std.ReflCmp.compare_self, ih n⟩

/-- The leading parts of a key are less than a boundary just when the whole key is. With equality
admitted this fails: the key may go on where the boundary ends. -/
theorem leadsAtMost_exclusive {key boundary : Key} (placed : key.IsPlaced)
    (bounded : boundary.IsPlaced) :
    key.leadsAtMost boundary false = true ↔ key.rankOrder boundary = .lt := by
  have leads : key.leadsAtMost boundary false = true ↔
      rankOrder (key.take boundary.length) boundary = .lt := by
    unfold leadsAtMost
    rw [compare_eq_rankOrder (placed.take _) bounded]
    exact Ordering.isLT_iff_eq_lt
  rw [leads]
  constructor
  · -- A boundary that is at most the key is at most the key cut to its length.
    intro less
    by_contra notLess
    have atMost : (rankOrder boundary key).isLE :=
      Std.OrientedCmp.isLE_of_isGE (Ordering.isGE_iff_ne_lt.mpr notLess)
    have leading := rankOrder_take_isLE boundary.length atMost
    rw [List.take_length] at leading
    exact Std.OrientedCmp.not_isLE_of_lt less leading
  · exact Std.TransCmp.lt_of_isLE_of_lt (rankOrder_take_self_isLE key _)

/-- A key that leads less than a boundary leads less than, or at most, any later one. -/
theorem leadsAtMost_of_le {key boundary later : Key} (placed : key.IsPlaced)
    (bounded : boundary.IsPlaced) (bounded' : later.IsPlaced)
    (order : (boundary.rankOrder later).isLE) (leads : key.leadsAtMost boundary false = true)
    (inclusive : Bool) : key.leadsAtMost later inclusive = true := by
  have less := (leadsAtMost_exclusive placed bounded).mp leads
  have strict : key.leadsAtMost later false = true :=
    (leadsAtMost_exclusive placed bounded').mpr (Std.TransCmp.lt_of_lt_of_isLE less order)
  cases inclusive with
  | false => exact strict
  | true =>
    unfold leadsAtMost at strict ⊢
    exact Ordering.isLE_of_eq_lt (Ordering.isLT_iff_eq_lt.mp strict)

end Key

namespace Index

variable {index : Index} {inserted : List Value}

/-- The bound before a boundary lies before the bounds of every later one, and before its own bound
past it. -/
theorem Built.bound_le_bound (built : Built index inserted)
    (proper : ∀ record ∈ inserted, index.HasProperKey record) {boundary later : Key}
    (bounded : boundary.IsPlaced) (bounded' : later.IsPlaced)
    (order : (boundary.rankOrder later).isLE) (past : Bool) :
    index.bound boundary false ≤ index.bound later past := by
  refine (built.isCut_bound boundary false).le_of_imp (built.isCut_bound later past)
    (built.leadsAtMost_ordered proper bounded false) fun record member leads => ?_
  have listed := proper record (built.perm.mem_iff.mp member)
  exact Key.leadsAtMost_of_le listed.isPlaced bounded bounded' order leads past

/-- Two stretches of which one ends where the other begins join. -/
theorem slice_append_slice (index : Index) {start middle stop : Nat} (before : start ≤ middle)
    (after : middle ≤ stop) :
    index.slice start middle ++ index.slice middle stop = index.slice start stop := by
  have first : index.slice start middle =
      ((index.records.take stop).drop start).take (middle - start) := by
    rw [slice, ← List.drop_take, List.take_take, Nat.min_eq_left after]
  have second : index.slice middle stop =
      ((index.records.take stop).drop start).drop (middle - start) := by
    rw [slice, List.drop_drop, Nat.add_sub_cancel' before]
  rw [first, second, List.take_append_drop]
  rfl

/-- **Adjacent ranges tile.** In an index built without not-a-number among the keys, for boundaries of
any lengths in order, the range from the first up to the second one and then the range from the
second up to the third one are the range from the first up to the third, where a range has its left
boundary and not its right one. The range up to a boundary and then the lookup of the boundary are
the range with the boundary. -/
theorem Built.between_append_between (built : Built index inserted)
    (proper : ∀ record ∈ inserted, index.HasProperKey record) {first second third : Value}
    (firstProper : first.IsProperKey) (secondProper : second.IsProperKey)
    (thirdProper : third.IsProperKey) (before : (Key.compare first.toKey second.toKey).isLE)
    (after : (Key.compare second.toKey third.toKey).isLE) {options : Options}
    (left : options.leftInclusive = true) (right : options.rightInclusive = false)
    (offset : options.offset.isNumber = false) (limit : options.limit.isNumber = false) :
    index.between first second options ++ index.between second third options =
        index.between first third options ∧
      index.between first second options ++ index.get second =
        index.between first second { options with rightInclusive := true } := by
  have firstPlaced := Key.isPlaced_toKey firstProper
  have secondPlaced := Key.isPlaced_toKey secondProper
  have thirdPlaced := Key.isPlaced_toKey thirdProper
  rw [Key.compare_eq_rankOrder firstPlaced secondPlaced] at before
  rw [Key.compare_eq_rankOrder secondPlaced thirdPlaced] at after
  have toSecond := built.bound_le_bound proper firstPlaced secondPlaced before false
  have toThird := built.bound_le_bound proper secondPlaced thirdPlaced after false
  have pastSecond := built.bound_le_bound proper secondPlaced secondPlaced
    (Ordering.isLE_of_eq_eq Std.ReflCmp.compare_self) true
  have halfOpen (a b : Value) : index.between a b options =
      index.slice (index.bound a.toKey false) (index.bound b.toKey false) := by
    rw [between_eq_slice index a b offset limit, left, right]
    rfl
  have closed : index.between first second { options with rightInclusive := true } =
      index.slice (index.bound first.toKey (!options.leftInclusive))
        (index.bound second.toKey true) := between_eq_slice index first second offset limit
  rw [halfOpen, halfOpen, halfOpen, closed, left]
  exact ⟨index.slice_append_slice toSecond toThird, index.slice_append_slice toSecond pastSecond⟩

/-- From one leading part up to a full key with a text, then up to a part for which there is a record
that goes on after it. -/
theorem between_append_between_of_lengths :
    let record := fun (id a : Int) (b : Value) => Value.map
      [(.str "id", .int id), (.str "a", .int a), (.str "b", b)]
    let start : Index := .blank ["a", "b"]
    let records := [record 1 2 .null, record 2 1 (.str "y"), record 3 1 (.str "x"),
      record 4 1 (.bool true)]
    let index := start.insertAll records
    let first := Value.float (.finite false 1 0)
    let second := Value.tuple [.bool true, .str "x"]
    let third := Value.list [.int 2]
    let options : Options := ⟨.null, true, false, .null, .str "all", []⟩
    Built index records ∧ (∀ record ∈ records, index.HasProperKey record) ∧
      first.IsProperKey ∧ second.IsProperKey ∧ third.IsProperKey ∧
      (Key.compare first.toKey second.toKey).isLE ∧
      (Key.compare second.toKey third.toKey).isLE ∧
      index.between first second options = [record 4 1 (.bool true)] ∧
      index.between first second options ++ index.between second third options =
        index.between first third options ∧
      index.between first second options ++ index.get second =
        index.between first second { options with rightInclusive := true } := by
  intro record start records index first second third options
  have created : Index.create (.list [.str "a", .str "b"]) (.str "id") = .ok start := rfl
  have built : Built index records := (Built.create created).insertAll records
  have keys : ∀ record ∈ records, index.HasProperKey record := by decide
  have firstProper : first.IsProperKey := by decide
  have secondProper : second.IsProperKey := by decide
  have thirdProper : third.IsProperKey := by decide
  exact ⟨built, keys, firstProper, secondProper, thirdProper, rfl, rfl, by cbv,
    built.between_append_between keys firstProper secondProper thirdProper rfl rfl rfl rfl rfl rfl⟩

end Index

end RecordQuery

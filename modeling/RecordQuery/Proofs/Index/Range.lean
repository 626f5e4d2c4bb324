import Mathlib
import RecordQuery.Proofs.Index.Insertion
import RecordQuery.Proofs.Paging

/-!
# Ranges of an index

In an index the keys stand in order, and so do their leading parts. The bound of a boundary is
therefore a cut of the index: the records before it lead on one side of the boundary, those from it
on lead on the other (`Built.isCut_bound`, `Built.leadsAtMost_ordered`). The stretch between two
bounds is then what a filter over all records leaves (`Built.slice_eq_filter`), whatever the lengths
of the boundaries and even if they are reversed.
-/

namespace RecordQuery

namespace Key

/-- Whether the leading parts of the key are at least a boundary, or greater if the boundary does
not belong to the range. -/
def leadsAtLeast (key boundary : Key) (inclusive : Bool) : Bool :=
  let order := Key.compare (key.take boundary.length) boundary
  if inclusive then order.isGE else order.isGT

/-- Whether the leading parts of the key are at most a boundary, or less if the boundary does not
belong to the range. -/
def leadsAtMost (key boundary : Key) (inclusive : Bool) : Bool :=
  let order := Key.compare (key.take boundary.length) boundary
  if inclusive then order.isLE else order.isLT

theorem leadsAtLeast_eq_not_leadsAtMost (key boundary : Key) (inclusive : Bool) :
    key.leadsAtLeast boundary inclusive = !key.leadsAtMost boundary (!inclusive) := by
  unfold leadsAtLeast leadsAtMost
  cases inclusive <;> cases Key.compare (key.take boundary.length) boundary <;> rfl

/-- If a key leads at most a boundary, so do the keys before it. -/
theorem leadsAtMost_of_rankOrder {a b boundary : Key} {inclusive : Bool}
    (placed : a.IsPlaced) (placed' : b.IsPlaced) (bounded : boundary.IsPlaced)
    (order : (a.rankOrder b).isLE) (later : b.leadsAtMost boundary inclusive = true) :
    a.leadsAtMost boundary inclusive = true := by
  have leading := rankOrder_take_isLE boundary.length order
  unfold leadsAtMost at later ⊢
  rw [compare_eq_rankOrder (placed'.take _) bounded] at later
  rw [compare_eq_rankOrder (placed.take _) bounded]
  cases inclusive with
  | true => exact Std.TransCmp.isLE_trans leading later
  | false =>
    have less := Ordering.isLT_iff_eq_lt.mp later
    exact Ordering.isLT_iff_eq_lt.mpr (Std.TransCmp.lt_of_isLE_of_lt leading less)

end Key

namespace Index

variable {index : Index} {inserted : List Value}

/-- The records before a bound lead at most its boundary, and the record at it does not. -/
theorem Built.isCut_bound (built : Built index inserted) (boundary : Key) (past : Bool) :
    BinarySearch.IsCut (fun record => (index.keyOf record).leadsAtMost boundary past)
      index.records (index.bound boundary past) := by
  have onEntries : BinarySearch.IsCut (fun entry => entry.key.leadsAtMost boundary past)
      index.entries (index.bound boundary past) := by
    cases past <;> exact BinarySearch.isCut_cut _ _
  obtain ⟨order, aligned⟩ := built.aligned
  rw [aligned.entries_eq, BinarySearch.IsCut.map_iff] at onEntries
  rw [aligned.records_eq, BinarySearch.IsCut.map_iff]
  exact onEntries

/-- The records that lead at most a boundary stand before those that do not. -/
theorem Built.leadsAtMost_ordered (built : Built index inserted)
    (proper : ∀ record ∈ inserted, index.HasProperKey record) {boundary : Key}
    (bounded : boundary.IsPlaced) (past : Bool) :
    index.records.Pairwise fun a b =>
      (index.keyOf b).leadsAtMost boundary past = true →
        (index.keyOf a).leadsAtMost boundary past = true := by
  obtain ⟨order, aligned⟩ := built.aligned
  have sorted := built.keys_sorted proper
  have placed := built.keys_placed proper
  rw [aligned.entries_eq] at sorted placed
  rw [List.pairwise_map] at sorted
  rw [aligned.records_eq, List.pairwise_map]
  exact sorted.imp_of_mem fun left right leq =>
    Key.leadsAtMost_of_rankOrder (placed _ (List.mem_map_of_mem left))
      (placed _ (List.mem_map_of_mem right)) bounded leq

/-- The stretch of an index between two bounds is what a filter leaves. -/
theorem Built.slice_eq_filter (built : Built index inserted)
    (proper : ∀ record ∈ inserted, index.HasProperKey record) {left right : Key}
    (leftPlaced : left.IsPlaced) (rightPlaced : right.IsPlaced) (leftPast rightPast : Bool) :
    index.slice (index.bound left leftPast) (index.bound right rightPast) =
      index.toList.filter fun record =>
        !(index.keyOf record).leadsAtMost left leftPast &&
          (index.keyOf record).leadsAtMost right rightPast := by
  have start := built.isCut_bound left leftPast
  have stop := built.isCut_bound right rightPast
  have startOrdered := built.leadsAtMost_ordered proper leftPlaced leftPast
  have stopOrdered := built.leadsAtMost_ordered proper rightPlaced rightPast
  exact (BinarySearch.filter_eq_slice
    (fun _ member => start.passes_of_mem_take startOrdered member)
    (fun _ member => start.fails_of_mem_drop startOrdered member)
    (fun _ member => stop.passes_of_mem_take stopOrdered member)
    (fun _ member => stop.fails_of_mem_drop stopOrdered member)).symm

/-- Without a numeric offset and limit a range is not paged; bounds in the wrong order leave nothing,
as the stretch between them is empty already. -/
theorem between_eq_slice (index : Index) (left right : Value) {options : Options}
    (offset : options.offset.isNumber = false) (limit : options.limit.isNumber = false) :
    index.between left right options =
      index.slice (index.bound left.toKey (!options.leftInclusive))
        (index.bound right.toKey options.rightInclusive) := by
  unfold Index.between
  dsimp only
  split
  · rename_i reversed
    rw [slice, List.drop_eq_nil_of_le]
    exact (List.length_take_le _ _).trans reversed
  · rw [Value.skipIfNumber_of_not_number offset, Value.limitIfNumber_of_not_number limit]

/-- **A range is a filter.** In an index built without not-a-number among the keys, the unpaged range
between two boundaries holds, in the order of the index, just the records whose leading key parts
are at least the left boundary and at most the right one, each boundary counting as its flag says.
It is empty just when no record lies so. -/
theorem Built.between_eq_filter (built : Built index inserted)
    (proper : ∀ record ∈ inserted, index.HasProperKey record) {left right : Value}
    (leftProper : left.IsProperKey) (rightProper : right.IsProperKey) {options : Options}
    (offset : options.offset.isNumber = false) (limit : options.limit.isNumber = false) :
    index.between left right options =
        (index.toList.filter fun record =>
          (index.keyOf record).leadsAtLeast left.toKey options.leftInclusive &&
            (index.keyOf record).leadsAtMost right.toKey options.rightInclusive) ∧
      (index.between left right options = [] ↔
        ∀ record ∈ inserted,
          ¬ ((index.keyOf record).leadsAtLeast left.toKey options.leftInclusive = true ∧
            (index.keyOf record).leadsAtMost right.toKey options.rightInclusive = true)) := by
  have range : index.between left right options =
      (index.toList.filter fun record =>
        (index.keyOf record).leadsAtLeast left.toKey options.leftInclusive &&
          (index.keyOf record).leadsAtMost right.toKey options.rightInclusive) := by
    simp only [Key.leadsAtLeast_eq_not_leadsAtMost]
    rw [between_eq_slice index left right offset limit]
    exact built.slice_eq_filter proper (Key.isPlaced_toKey leftProper)
      (Key.isPlaced_toKey rightProper) _ _
  refine ⟨range, ?_⟩
  rw [range, List.filter_eq_nil_iff]
  constructor
  · intro outside record member both
    exact outside record (built.perm.mem_iff.mpr member) (Bool.and_eq_true_iff.mpr both)
  · intro outside record member both
    exact outside record (built.perm.mem_iff.mp member) (Bool.and_eq_true_iff.mp both)

/-- A range from past a full key up to a leading part that belongs to it, over records of which one
has an id that is not-a-number. -/
theorem between_eq_filter_of_prefix :
    let early := Value.map [(.str "a", .int 1), (.str "b", .str "x"), (.str "id", .int 3)]
    let middle := Value.map [(.str "a", .bool true), (.str "b", .str "y"),
      (.str "id", .float (.nan 0))]
    let late := Value.map [(.str "a", .int 2), (.str "b", .null), (.str "id", .int 1)]
    let start : Index := .blank ["a", "b"]
    let index := ((start.insert late).insert middle).insert early
    let left := Value.tuple [.int 1, .str "x"]
    let right := Value.int 2
    let options : Options := ⟨.null, false, true, .null, .str "all", []⟩
    Built index [late, middle, early] ∧
      (∀ record ∈ [late, middle, early], index.HasProperKey record) ∧
      left.IsProperKey ∧ right.IsProperKey ∧
      options.offset.isNumber = false ∧ options.limit.isNumber = false ∧
      index.between left right options = [middle, late] ∧
      index.between left right options = index.toList.filter fun record =>
        (index.keyOf record).leadsAtLeast left.toKey options.leftInclusive &&
          (index.keyOf record).leadsAtMost right.toKey options.rightInclusive := by
  intro early middle late start index left right options
  have created : Index.create (.list [.str "a", .str "b"]) (.str "id") = .ok start := rfl
  have built : Built index [late, middle, early] :=
    .insert early (.insert middle (.insert late (.create created)))
  have keys : ∀ record ∈ [late, middle, early], index.HasProperKey record := by decide
  have leftProper : left.IsProperKey := by decide
  have rightProper : right.IsProperKey := by decide
  exact ⟨built, keys, leftProper, rightProper, rfl, rfl, by cbv,
    (built.between_eq_filter keys leftProper rightProper rfl rfl).1⟩

end Index

end RecordQuery

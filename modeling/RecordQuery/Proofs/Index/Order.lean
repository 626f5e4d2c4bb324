import Mathlib
import RecordQuery.Proofs.Index.Insertion

/-!
# The order of the records of an index

The records of an index are the stable sort of those inserted by the places of key and id
(`Built.toList_eq_mergeSort`). So they stand in the order of the index (`Built.ordered`), and in the
order of their keys even where ids are not-a-number (`Built.keys_ordered`).
-/

namespace RecordQuery.Index

variable {index : Index} {inserted : List Value}

/-- Insertions change neither where keys and ids are found nor what is indexed. -/
theorem insertAll_frame (index : Index) (records : List Value) :
    (index.insertAll records).fields = index.fields ∧
      (index.insertAll records).paths = index.paths ∧
        (index.insertAll records).idPath = index.idPath := by
  induction records generalizing index with
  | nil => exact ⟨rfl, rfl, rfl⟩
  | cons record records ih => exact ih (index.insert record)

theorem Built.insertAll (built : Built index inserted) (records : List Value) :
    Built (index.insertAll records) (inserted ++ records) := by
  induction records generalizing index inserted with
  | nil => simpa [Index.insertAll] using built
  | cons record records ih =>
    have further := ih (built.insert record)
    rwa [List.append_assoc] at further

theorem Built.toList_eq_mergeSort (built : Built index inserted)
    (properKeys : ∀ record ∈ inserted, index.HasProperKey record)
    (properIds : ∀ record ∈ inserted, index.HasProperId record) :
    index.toList = inserted.mergeSort index.mayPrecede := by
  obtain ⟨order, aligned⟩ := built.aligned
  have sorted := built.entries_sorted properKeys properIds
  rw [toList, aligned.records_eq, aligned.order_eq_mergeSort sorted]
  exact List.mergeSort_zipIdx

theorem isLE_compareRecords {a b : Value} (key : index.HasProperKey a)
    (key' : index.HasProperKey b) (id : index.HasProperId a) (id' : index.HasProperId b) :
    (index.compareRecords a b).isLE = index.mayPrecede a b := by
  rw [mayPrecede, compareRecords_eq_rankRecords key key' id id']

theorem Built.ordered (built : Built index inserted)
    (properKeys : ∀ record ∈ inserted, index.HasProperKey record)
    (properIds : ∀ record ∈ inserted, index.HasProperId record) :
    index.toList.Pairwise fun a b => (index.compareRecords a b).isLE := by
  have listed : ∀ record ∈ index.toList, record ∈ inserted := fun record member =>
    built.perm.mem_iff.mp member
  have sorted : index.toList.Pairwise fun a b => index.mayPrecede a b = true := by
    rw [built.toList_eq_mergeSort properKeys properIds]
    exact List.pairwise_mergeSort index.mayPrecede_trans index.mayPrecede_total inserted
  apply sorted.imp_of_mem
  intro a b left right before
  have left := listed a left
  have right := listed b right
  rwa [isLE_compareRecords (properKeys a left) (properKeys b right) (properIds a left)
    (properIds b right)]

theorem Built.keys_ordered (built : Built index inserted)
    (properKeys : ∀ record ∈ inserted, index.HasProperKey record) :
    index.toList.Pairwise fun a b => (Key.compare (index.keyOf a) (index.keyOf b)).isLE := by
  obtain ⟨order, aligned⟩ := built.aligned
  have sorted := built.keys_sorted properKeys
  have placed := built.keys_placed properKeys
  rw [aligned.entries_eq] at sorted placed
  rw [List.pairwise_map] at sorted
  rw [toList, aligned.records_eq, List.pairwise_map]
  apply sorted.imp_of_mem
  intro a b left right before
  have left := placed _ (List.mem_map_of_mem left)
  have right := placed _ (List.mem_map_of_mem right)
  rwa [← Key.compare_eq_rankOrder left right] at before

end RecordQuery.Index

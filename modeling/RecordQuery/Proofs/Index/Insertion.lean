import Mathlib
import RecordQuery.Proofs.BinarySearch
import RecordQuery.Proofs.Index.Creation
import RecordQuery.Proofs.Key.Order

/-!
# What an index holds after any run of insertions

`Built index inserted` relates an index to the records that it took since it was created, in the
order of insertion. Along every such run the entries and the records stay aligned: both are images
of one arrangement of the inserted records with their serial numbers (`Built.aligned`).

The order needs not-a-number to be absent, and only where it would decide: without it among the keys
the entries stay in the order of their keys (`Built.keys_sorted`); without it among the ids as well
they stay strictly in the order of key, id and serial number (`Built.entries_sorted`). The records
are then the stable sort of those inserted.
-/

namespace RecordQuery

/-- A preorder pulled back along a function is a preorder. -/
theorem transCmp_comp {α β : Type} (order : β → β → Ordering) [Std.TransCmp order] (f : α → β) :
    Std.TransCmp fun a b => order (f a) (f b) where
  eq_swap := Std.OrientedCmp.eq_swap
  isLE_trans := Std.TransCmp.isLE_trans

namespace Index

/-! ## The order of entries -/

/-- The order of entries by the places of their parts. -/
def Entry.rankOrder : Entry → Entry → Ordering :=
  compareLex (fun a b => a.key.rankOrder b.key)
    (compareLex (fun a b => a.idPart.rankOrder b.idPart) (compareOn Entry.serial))

instance : Std.TransCmp Entry.rankOrder := by
  have keys := transCmp_comp Key.rankOrder Entry.key
  have ids := transCmp_comp KeyPart.rankOrder Entry.idPart
  exact inferInstanceAs (Std.TransCmp (compareLex _ (compareLex _ _)))

/-- Entries of which all parts have places compare by them. -/
theorem Entry.compare_eq_rankOrder {a b : Entry}
    (key : a.key.IsPlaced) (key' : b.key.IsPlaced)
    (id : a.idPart.IsPlaced) (id' : b.idPart.IsPlaced) : a.compare b = a.rankOrder b := by
  rw [Entry.compare, Key.compare_eq_rankOrder key key', KeyPart.compare_eq_rankOrder id id']
  rfl

/-- The key of the record has no not-a-number. -/
def HasProperKey (index : Index) (record : Value) : Prop :=
  (Value.list (index.keyValues record)).IsProperKey

/-- The id of the record is not not-a-number. -/
def HasProperId (index : Index) (record : Value) : Prop :=
  (record.lookup index.idPath).isNaN = false

instance (index : Index) (record : Value) : Decidable (index.HasProperKey record) :=
  inferInstanceAs (Decidable (Value.IsProperKey _))

instance (index : Index) (record : Value) : Decidable (index.HasProperId record) :=
  inferInstanceAs (Decidable (_ = false))

theorem HasProperKey.isPlaced {index : Index} {record : Value}
    (proper : index.HasProperKey record) : (index.keyOf record).IsPlaced :=
  Key.isPlaced_toKey proper

theorem HasProperId.isPlaced {index : Index} {record : Value}
    (proper : index.HasProperId record) : (index.idPartOf record).IsPlaced :=
  KeyPart.isPlaced_ofValue proper

/-! ## Runs of insertions -/

/-- The index was created without records and then took the records one after the other. -/
inductive Built : Index → List Value → Prop
  | create {fields idField : Value} {index : Index} :
    Index.create fields idField = .ok index → Built index []
  | insert {index : Index} {inserted : List Value} (record : Value) :
    Built index inserted → Built (index.insert record) (inserted ++ [record])

/-- Every index has the paths of its fields, since insertions touch neither. -/
theorem Built.paths_of_fields {index : Index} {inserted : List Value}
    (built : Built index inserted) :
    List.Forall₂ (fun field path => Path.ofField field = .ok path) index.fields index.paths := by
  induction built with
  | create created =>
    obtain ⟨paths, idPath, located, -, rfl⟩ := create_eq_ok created
    exact mapM_eq_ok.mp located
  | insert record _ ih => exact ih

theorem Built.fields_ne_nil {index : Index} {inserted : List Value}
    (built : Built index inserted) : index.fields ≠ [] := by
  induction built with
  | @create fields idField index created =>
    rw [(create_spec created).1]
    intro blank
    unfold Index.create at created
    rw [blank] at created
    cases created
  | insert record _ ih => exact ih

theorem Built.paths_of_single {index : Index} {inserted : List Value} {field : Value} {path : Path}
    (built : Built index inserted) (single : index.fields = [field])
    (located : Path.ofField field = .ok path) : index.paths = [path] := by
  have paths := built.paths_of_fields
  rw [single] at paths
  simp only [List.forall₂_cons_left_iff, List.forall₂_nil_left_iff] at paths
  obtain ⟨other, rest, same, rfl, paths⟩ := paths
  cases located.symm.trans same
  exact paths

theorem Built.length_keyOf {index : Index} {inserted : List Value} (built : Built index inserted)
    (record : Value) : (index.keyOf record).length = index.fields.length := by
  have paths := built.paths_of_fields.length_eq
  simp [keyOf, Value.toKey, Value.keyItems, keyValues, paths]

/-- The position at which a record goes into an index. -/
def positionFor (index : Index) (record : Value) : Nat :=
  BinarySearch.upperBound (fun e => e.compare (index.entryFor record index.nextSerial))
    index.entries

theorem isCut_positionFor (index : Index) (record : Value) :
    BinarySearch.IsCut
      (fun e => (e.compare (index.entryFor record index.nextSerial)).isLE) index.entries
      (index.positionFor record) :=
  BinarySearch.isCut_cut _ _

theorem insert_entries (index : Index) (record : Value) :
    (index.insert record).entries = index.entries.insertIdx (index.positionFor record)
      (index.entryFor record index.nextSerial) :=
  rfl

theorem insert_records (index : Index) (record : Value) :
    (index.insert record).records =
      index.records.insertIdx (index.positionFor record) record :=
  rfl

/-! ## Alignment -/

/-- The entries and the records of the index are images of one arrangement of the inserted records
with their serial numbers. -/
structure IsAligned (index : Index) (inserted : List Value) (order : List (Value × Nat)) :
    Prop where
  perm : order.Perm inserted.zipIdx
  entries_eq : index.entries = order.map fun pair => index.entryFor pair.1 pair.2
  records_eq : index.records = order.map Prod.fst
  nextSerial_eq : index.nextSerial = inserted.length

/-- Inserting keeps the entries and the records aligned, whatever the position. -/
theorem IsAligned.insert {index : Index} {inserted : List Value} {order : List (Value × Nat)}
    (aligned : index.IsAligned inserted order) (record : Value) :
    (index.insert record).IsAligned (inserted ++ [record])
      (order.insertIdx (index.positionFor record) (record, inserted.length)) where
  perm := by
    have within : index.positionFor record ≤ order.length := by
      have bound := (index.isCut_positionFor record).within
      rw [aligned.entries_eq, List.length_map] at bound
      exact bound
    rw [List.zipIdx_append, Nat.zero_add]
    calc order.insertIdx (index.positionFor record) (record, inserted.length)
        |>.Perm ((record, inserted.length) :: order) := List.perm_insertIdx _ _ within
      _ |>.Perm ((record, inserted.length) :: inserted.zipIdx) := aligned.perm.cons _
      _ |>.Perm (inserted.zipIdx ++ [(record, inserted.length)]) :=
        (List.perm_append_singleton _ _).symm
  entries_eq := by
    rw [List.map_insertIdx, ← aligned.nextSerial_eq, insert_entries, aligned.entries_eq]
    rfl
  records_eq := by rw [List.map_insertIdx, insert_records, aligned.records_eq]
  nextSerial_eq := by
    rw [List.length_append, ← aligned.nextSerial_eq]
    rfl

theorem Built.aligned {index : Index} {inserted : List Value} (built : Built index inserted) :
    ∃ order, index.IsAligned inserted order := by
  induction built with
  | create created =>
    obtain ⟨paths, idPath, -, -, rfl⟩ := create_eq_ok created
    exact ⟨[], .nil, rfl, rfl, rfl⟩
  | insert record _ ih =>
    obtain ⟨order, aligned⟩ := ih
    exact ⟨_, aligned.insert record⟩

/-- No record is lost or repeated. -/
theorem Built.perm {index : Index} {inserted : List Value} (built : Built index inserted) :
    index.toList.Perm inserted := by
  obtain ⟨order, aligned⟩ := built.aligned
  have firsts := aligned.perm.map Prod.fst
  rw [← aligned.records_eq, List.zipIdx_map_fst] at firsts
  exact firsts

/-- Every entry is that of a record inserted before, under an earlier serial number. -/
theorem IsAligned.of_mem_entries {index : Index} {inserted : List Value}
    {order : List (Value × Nat)} (aligned : index.IsAligned inserted order) {entry : Entry}
    (member : entry ∈ index.entries) :
    ∃ record ∈ inserted, entry = index.entryFor record entry.serial ∧
      inserted[entry.serial]? = some record ∧ entry.serial < index.nextSerial := by
  rw [aligned.entries_eq] at member
  obtain ⟨⟨record, serial⟩, placed, rfl⟩ := List.mem_map.mp member
  have found := List.mk_mem_zipIdx_iff_getElem?.mp (aligned.perm.mem_iff.mp placed)
  refine ⟨record, List.mem_of_getElem? found, rfl, found, ?_⟩
  rw [aligned.nextSerial_eq]
  exact (List.getElem?_eq_some_iff.mp found).1

/-! ## Order -/

/-- Without not-a-number among the keys, an insertion keeps the entries in the order of their keys.
Ids that cannot be compared do no harm, since the entries of one key stand together anyway. -/
theorem insert_keys_sorted {index : Index} {record : Value}
    (keys : ∀ entry ∈ index.entries, entry.key.IsPlaced)
    (proper : index.HasProperKey record)
    (sorted : index.entries.Pairwise fun a b => (a.key.rankOrder b.key).isLE) :
    (index.insert record).entries.Pairwise fun a b => (a.key.rankOrder b.key).isLE := by
  have placed : (index.entryFor record index.nextSerial).key.IsPlaced := proper.isPlaced
  rw [insert_entries]
  refine (index.isCut_positionFor record).pairwise_insertIdx Std.TransCmp.isLE_trans sorted
    (fun entry member passes => ?_) (fun entry member fails => ?_)
  · rw [← Key.compare_eq_rankOrder (keys entry member) placed]
    exact Ordering.isLE_left_of_isLE_then passes
  · have after : (entry.compare (index.entryFor record index.nextSerial)).isGE := by
      rw [Ordering.isLE_eq_false.mp fails]
      rfl
    rw [← Std.OrientedCmp.isGE_iff_isLE, ← Key.compare_eq_rankOrder (keys entry member) placed]
    exact Ordering.isGE_left_of_isGE_then after

/-- Without not-a-number among keys and ids, an insertion keeps the entries strictly in their
order. -/
theorem insert_entries_sorted {index : Index} {record : Value}
    (keys : ∀ entry ∈ index.entries, entry.key.IsPlaced)
    (ids : ∀ entry ∈ index.entries, entry.idPart.IsPlaced)
    (earlier : ∀ entry ∈ index.entries, entry.serial < index.nextSerial)
    (properKey : index.HasProperKey record) (properId : index.HasProperId record)
    (sorted : index.entries.Pairwise fun a b => a.rankOrder b = .lt) :
    (index.insert record).entries.Pairwise fun a b => a.rankOrder b = .lt := by
  have order : ∀ entry ∈ index.entries,
      entry.compare (index.entryFor record index.nextSerial) =
        entry.rankOrder (index.entryFor record index.nextSerial) := fun entry member =>
    Entry.compare_eq_rankOrder (keys entry member) properKey.isPlaced (ids entry member)
      properId.isPlaced
  rw [insert_entries]
  refine (index.isCut_positionFor record).pairwise_insertIdx Std.TransCmp.lt_trans sorted
    (fun entry member passes => ?_) (fun entry member fails => ?_)
  · rw [order entry member] at passes
    -- The serial numbers differ, so the two entries cannot tie.
    have serials : compareOn Entry.serial entry (index.entryFor record index.nextSerial) = .lt :=
      Nat.compare_eq_lt.mpr (earlier entry member)
    refine Ordering.isLE_iff_eq_lt_or_eq_eq.mp passes |>.resolve_right fun tie => ?_
    rw [Entry.rankOrder, compareLex_eq_eq, compareLex_eq_eq, serials] at tie
    cases tie.2.2
  · rw [order entry member] at fails
    exact Std.OrientedCmp.lt_of_gt (Ordering.isLE_eq_false.mp fails)

namespace Built

variable {index : Index} {inserted : List Value}

theorem keys_placed (built : Built index inserted)
    (proper : ∀ record ∈ inserted, index.HasProperKey record) :
    ∀ entry ∈ index.entries, entry.key.IsPlaced := by
  intro entry member
  obtain ⟨order, aligned⟩ := built.aligned
  obtain ⟨record, listed, same, _⟩ := aligned.of_mem_entries member
  rw [same]
  exact (proper record listed).isPlaced

theorem ids_placed (built : Built index inserted)
    (proper : ∀ record ∈ inserted, index.HasProperId record) :
    ∀ entry ∈ index.entries, entry.idPart.IsPlaced := by
  intro entry member
  obtain ⟨order, aligned⟩ := built.aligned
  obtain ⟨record, listed, same, _⟩ := aligned.of_mem_entries member
  rw [same]
  exact (proper record listed).isPlaced

/-- Along every run without not-a-number among the keys, the entries stand in the order of their
keys. -/
theorem keys_sorted (built : Built index inserted)
    (proper : ∀ record ∈ inserted, index.HasProperKey record) :
    index.entries.Pairwise fun a b => (a.key.rankOrder b.key).isLE := by
  induction built with
  | create created =>
    obtain ⟨paths, idPath, -, -, rfl⟩ := create_eq_ok created
    exact .nil
  | insert record built ih =>
    have before := fun r member => proper r (List.mem_append_left [record] member)
    exact insert_keys_sorted (built.keys_placed before) (proper record List.mem_concat_self)
      (ih before)

/-- Along every run without not-a-number among keys and ids, the entries stand strictly in their
order. -/
theorem entries_sorted (built : Built index inserted)
    (properKeys : ∀ record ∈ inserted, index.HasProperKey record)
    (properIds : ∀ record ∈ inserted, index.HasProperId record) :
    index.entries.Pairwise fun a b => a.rankOrder b = .lt := by
  induction built with
  | create created =>
    obtain ⟨paths, idPath, -, -, rfl⟩ := create_eq_ok created
    exact .nil
  | @insert index inserted record built ih =>
    have keysBefore := fun r member => properKeys r (List.mem_append_left [record] member)
    have idsBefore := fun r member => properIds r (List.mem_append_left [record] member)
    obtain ⟨order, aligned⟩ := built.aligned
    have earlier : ∀ entry ∈ index.entries, entry.serial < index.nextSerial := by
      intro entry member
      obtain ⟨_, _, _, _, before⟩ := aligned.of_mem_entries member
      exact before
    have last : record ∈ inserted ++ [record] := List.mem_concat_self
    exact insert_entries_sorted (built.keys_placed keysBefore) (built.ids_placed idsBefore)
      earlier (properKeys record last) (properIds record last) (ih keysBefore idsBefore)

end Built

/-! ## Stable sorting -/

/-- The order in which an index keeps records: by key, then by id. -/
def compareRecords (index : Index) (a b : Value) : Ordering :=
  (Key.compare (index.keyOf a) (index.keyOf b)).then
    ((index.idPartOf a).compare (index.idPartOf b))

/-- The same order, by the places of the parts. -/
def rankRecords (index : Index) : Value → Value → Ordering :=
  compareLex (fun a b => (index.keyOf a).rankOrder (index.keyOf b))
    (fun a b => (index.idPartOf a).rankOrder (index.idPartOf b))

instance (index : Index) : Std.TransCmp index.rankRecords := by
  have keys := transCmp_comp Key.rankOrder index.keyOf
  have ids := transCmp_comp KeyPart.rankOrder index.idPartOf
  exact inferInstanceAs (Std.TransCmp (compareLex _ _))

theorem compareRecords_eq_rankRecords {index : Index} {a b : Value}
    (key : index.HasProperKey a) (key' : index.HasProperKey b)
    (id : index.HasProperId a) (id' : index.HasProperId b) :
    index.compareRecords a b = index.rankRecords a b := by
  rw [compareRecords, Key.compare_eq_rankOrder key.isPlaced key'.isPlaced,
    KeyPart.compare_eq_rankOrder id.isPlaced id'.isPlaced]
  rfl

/-- Whether a record may stand before another one by the places of the parts. -/
def mayPrecede (index : Index) (a b : Value) : Bool := (index.rankRecords a b).isLE

theorem mayPrecede_trans (index : Index) (a b c : Value) (first : index.mayPrecede a b = true)
    (second : index.mayPrecede b c = true) : index.mayPrecede a c = true :=
  Std.TransCmp.isLE_trans first second

theorem mayPrecede_total (index : Index) (a b : Value) :
    (index.mayPrecede a b || index.mayPrecede b a) = true := by
  have swap : index.rankRecords b a = (index.rankRecords a b).swap := Std.OrientedCmp.eq_swap
  rw [mayPrecede, mayPrecede, swap]
  cases index.rankRecords a b <;> rfl

/-- Records whose entries stand in order may stand in this order, and if they tie, the one inserted
first comes first. -/
theorem zipIdxLE_of_rankOrder {index : Index} {a b : Value × Nat}
    (less : (index.entryFor a.1 a.2).rankOrder (index.entryFor b.1 b.2) = .lt) :
    List.zipIdxLE index.mayPrecede a b = true := by
  have split : (index.rankRecords a.1 b.1).then (compare a.2 b.2) = .lt := by
    rw [rankRecords, compareLex, Ordering.then_assoc]
    exact less
  have swap : index.rankRecords b.1 a.1 = (index.rankRecords a.1 b.1).swap :=
    Std.OrientedCmp.eq_swap
  rw [List.zipIdxLE, mayPrecede, mayPrecede, swap]
  rcases Ordering.then_eq_lt.mp split with before | ⟨tie, serials⟩
  · rw [before]
    rfl
  · rw [tie]
    exact decide_eq_true (Nat.compare_eq_lt.mp serials).le

/-- Two numbered records that may stand in either order have one number. -/
theorem eq_of_zipIdxLE {index : Index} {a b : Value × Nat}
    (forth : List.zipIdxLE index.mayPrecede a b = true)
    (back : List.zipIdxLE index.mayPrecede b a = true) : a.2 = b.2 := by
  unfold List.zipIdxLE at forth back
  split at forth
  · split at forth
    · rw [if_pos ‹_›, if_pos ‹_›] at back
      exact Nat.le_antisymm (of_decide_eq_true forth) (of_decide_eq_true back)
    · rw [if_neg ‹_›] at back
      cases back
  · cases forth

/-- The arrangement of the records in order is that of a stable sort. -/
theorem IsAligned.order_eq_mergeSort {index : Index} {inserted : List Value}
    {order : List (Value × Nat)} (aligned : index.IsAligned inserted order)
    (sorted : index.entries.Pairwise fun a b => a.rankOrder b = .lt) :
    order = inserted.zipIdx.mergeSort (List.zipIdxLE index.mayPrecede) := by
  have perm := aligned.perm.trans
    (List.mergeSort_perm inserted.zipIdx (List.zipIdxLE index.mayPrecede)).symm
  have inOrder : order.Pairwise fun a b => List.zipIdxLE index.mayPrecede a b = true := by
    rw [aligned.entries_eq, List.pairwise_map] at sorted
    exact sorted.imp zipIdxLE_of_rankOrder
  have mergeInOrder := List.pairwise_mergeSort (List.zipIdxLE_trans index.mayPrecede_trans)
    (List.zipIdxLE_total index.mayPrecede_total) inserted.zipIdx
  refine perm.eq_of_pairwise (fun a b left right forth back => ?_) inOrder mergeInOrder
  -- A number stands for one inserted record, so records of one number are the same.
  have number := eq_of_zipIdxLE forth back
  have first := List.mk_mem_zipIdx_iff_getElem?.mp (aligned.perm.mem_iff.mp left)
  have second := List.mk_mem_zipIdx_iff_getElem?.mp (List.mem_mergeSort.mp right)
  rw [number] at first
  exact Prod.ext (Option.some.inj (first.symm.trans second)) number

/-- **An index is the stable sort of what was inserted.** After any run of insertions without
not-a-number among keys and ids, the records stand in the order of a stable sort by key and id;
nothing is lost or repeated; and the entries, each that of the record at its position under the
number of its insertion, stand strictly in order. -/
theorem Built.stable_sort {index : Index} {inserted : List Value} (built : Built index inserted)
    (properKeys : ∀ record ∈ inserted, index.HasProperKey record)
    (properIds : ∀ record ∈ inserted, index.HasProperId record) :
    index.toList = inserted.mergeSort (fun a b => (index.compareRecords a b).isLE) ∧
      index.toList.Perm inserted ∧
      index.size = inserted.length ∧
      index.entries.length = index.records.length ∧
      (∀ (position : Nat) (entry : Entry) (record : Value),
        index.entries[position]? = some entry → index.records[position]? = some record →
          entry = index.entryFor record entry.serial ∧
            inserted[entry.serial]? = some record) ∧
      index.entries.Pairwise fun a b => a.compare b = .lt := by
  obtain ⟨order, aligned⟩ := built.aligned
  have sorted := built.entries_sorted properKeys properIds
  have agree : ∀ a ∈ inserted, ∀ b ∈ inserted,
      (index.compareRecords a b).isLE = index.mayPrecede a b := by
    intro a left b right
    rw [mayPrecede, compareRecords_eq_rankRecords (properKeys a left) (properKeys b right)
      (properIds a left) (properIds b right)]
  have sort : inserted.mergeSort (fun a b => (index.compareRecords a b).isLE) =
      inserted.mergeSort index.mayPrecede := by
    have mapped := List.map_mergeSort (f := id) agree
    rwa [List.map_id, List.map_id] at mapped
  have toList : index.toList = inserted.mergeSort index.mayPrecede := by
    rw [toList, aligned.records_eq, aligned.order_eq_mergeSort sorted]
    exact List.mergeSort_zipIdx
  refine ⟨toList.trans sort.symm, built.perm, built.perm.length_eq, ?_, ?_, ?_⟩
  · rw [aligned.entries_eq, aligned.records_eq, List.length_map, List.length_map]
  · intro position entry record entryAt recordAt
    rw [aligned.entries_eq, List.getElem?_map, Option.map_eq_some_iff] at entryAt
    rw [aligned.records_eq, List.getElem?_map, Option.map_eq_some_iff] at recordAt
    obtain ⟨pair, found, rfl⟩ := entryAt
    obtain ⟨pair', found', rfl⟩ := recordAt
    cases Option.some.inj (found.symm.trans found')
    have numbered := aligned.perm.mem_iff.mp (List.mem_of_getElem? found)
    exact ⟨rfl, List.mk_mem_zipIdx_iff_getElem?.mp numbered⟩
  · refine sorted.imp_of_mem fun left right less => ?_
    rw [Entry.compare_eq_rankOrder (built.keys_placed properKeys _ left)
      (built.keys_placed properKeys _ right) (built.ids_placed properIds _ left)
      (built.ids_placed properIds _ right)]
    exact less

/-- Under a dotted path, a number and a truth value of the same value and id tie and keep the order of
their insertion; a text comes after both. -/
theorem stable_sort_of_tie :
    let text := Value.map [(.str "a", .map [(.str "b", .str "x")]), (.str "id", .int 0)]
    let one := Value.map [(.str "a", .map [(.str "b", .float (.finite false 1 0))]),
      (.str "id", .int 7)]
    let yes := Value.map [(.str "a", .map [(.str "b", .bool true)]), (.str "id", .int 7)]
    let start : Index := ⟨[.str "a.b"], [["a", "b"]], ["id"], [], [], 0⟩
    let index := ((start.insert text).insert one).insert yes
    Built index [text, one, yes] ∧
      (∀ record ∈ [text, one, yes], index.HasProperKey record) ∧
      (∀ record ∈ [text, one, yes], index.HasProperId record) ∧
      index.toList = [one, yes, text] ∧
      index.toList =
        [text, one, yes].mergeSort fun a b => (index.compareRecords a b).isLE := by
  intro text one yes start index
  have created : Index.create (.list [.str "a.b"]) (.str "id") = .ok start := rfl
  have built : Built index [text, one, yes] :=
    .insert yes (.insert one (.insert text (.create created)))
  have keys : ∀ record ∈ [text, one, yes], index.HasProperKey record := by decide
  have ids : ∀ record ∈ [text, one, yes], index.HasProperId record := by decide
  exact ⟨built, keys, ids, by cbv, (built.stable_sort keys ids).1⟩

end Index

end RecordQuery

import Mathlib
import RecordQuery.Proofs.Key.Order
import RecordQuery.Proofs.Query.Stages
import RecordQuery.Proofs.StableSort

/-!
# Sorting of comparable records

Where every sort key finds numbers only or texts only, the comparison of records is that of places
on lines (`SortKey.compare_eq_rank`), one line for each key and turned round for a descending one.
It is then a total preorder on the records, so that there is one stable sort, and a filter by an
order gives it (`Query.perform_order`). Keys that decide one after the other amount to sorts by the
single keys, the last key first (`SortKey.sort_cons`).
-/

namespace RecordQuery

namespace SortKey

/-! ## One key -/

/-- The key finds numbers other than not-a-number in all records, truth values among them, or texts
in all records. -/
def IsComparable (key : SortKey) (records : List Value) : Prop :=
  (∀ record ∈ records, (record.lookup (.ofString key.field)).numeric?.isSome ∧
      (record.lookup (.ofString key.field)).isNaN = false) ∨
    ∀ record ∈ records, ∃ s, record.lookup (.ofString key.field) = .str s

/-- The place of a record on the line of a key. -/
def place (key : SortKey) (record : Value) : KeyPart :=
  .ofValue (fold (record.lookup (.ofString key.field)))

/-- The order of records by their places, turned round for a descending key. -/
def rankBy (key : SortKey) (a b : Value) : Ordering :=
  match key.direction with
  | .ascending => (key.place a).rankOrder (key.place b)
  | .descending => (key.place b).rankOrder (key.place a)

instance (key : SortKey) : Std.TransCmp key.rankBy := by
  have ascending : Std.TransCmp fun a b => (key.place a).rankOrder (key.place b) :=
    inferInstanceAs (Std.TransCmp (compareOn fun record => (key.place record).rank))
  unfold rankBy
  cases key.direction with
  | ascending => exact ascending
  | descending => exact Std.TransCmp.opposite

variable {key : SortKey} {keys : List SortKey} {records : List Value}

theorem fold_of_numeric {v : Value} {n : Numeric} (numeric : v.numeric? = some n) : fold v = v := by
  cases v with
  | str s => cases numeric
  | _ => rfl

/-- Values that a key finds in comparable records compare by their places. -/
theorem compareValues_eq_rankOrder (comparable : key.IsComparable records) {a b : Value}
    (left : a ∈ records) (right : b ∈ records) :
    compareValues (a.lookup (.ofString key.field)) (b.lookup (.ofString key.field)) =
      (key.place a).rankOrder (key.place b) := by
  unfold compareValues place
  rcases comparable with numbers | texts
  · obtain ⟨numeric, proper⟩ := numbers a left
    obtain ⟨numeric', proper'⟩ := numbers b right
    obtain ⟨m, numeric⟩ := Option.isSome_iff_exists.mp numeric
    obtain ⟨n, numeric'⟩ := Option.isSome_iff_exists.mp numeric'
    rw [fold_of_numeric numeric, fold_of_numeric numeric',
      Value.compare?_eq_some numeric numeric' proper proper', Option.getD_some,
      KeyPart.compare_eq_rankOrder (KeyPart.isPlaced_ofValue proper)
        (KeyPart.isPlaced_ofValue proper')]
  · obtain ⟨s, text⟩ := texts a left
    obtain ⟨t, text'⟩ := texts b right
    rw [text, text']
    exact KeyPart.compare_eq_rankOrder (a := .text (Text.upper s)) (b := .text (Text.upper t))
      trivial trivial

theorem compareBy_eq_rankBy (comparable : key.IsComparable records) {a b : Value}
    (left : a ∈ records) (right : b ∈ records) : key.compareBy a b = key.rankBy a b := by
  unfold compareBy rankBy
  dsimp only
  rw [compareValues_eq_rankOrder comparable left right]
  cases key.direction with
  | ascending => rfl
  | descending => exact Std.OrientedCmp.eq_swap.symm

/-! ## Several keys -/

/-- The order of records by the first key that tells their places apart. -/
def rank : List SortKey → Value → Value → Ordering
  | [] => fun _ _ => .eq
  | key :: keys => compareLex key.rankBy (rank keys)

instance (keys : List SortKey) : Std.TransCmp (rank keys) := by
  induction keys with
  | nil => exact { eq_swap := rfl, isLE_trans := fun _ _ => rfl }
  | cons key keys _ => exact inferInstanceAs (Std.TransCmp (compareLex key.rankBy (rank keys)))

theorem compare_eq_rank (comparable : ∀ key ∈ keys, key.IsComparable records) {a b : Value}
    (left : a ∈ records) (right : b ∈ records) : compare keys a b = rank keys a b := by
  induction keys with
  | nil => rfl
  | cons key keys ih =>
    obtain ⟨first, others⟩ := List.forall_mem_cons.mp comparable
    rw [compare, compareBy_eq_rankBy first left right, ih others]
    rfl

theorem sort_eq_mergeSort_rank (comparable : ∀ key ∈ keys, key.IsComparable records) :
    sort keys records = records.mergeSort fun a b => (rank keys a b).isLE := by
  have sorts := List.map_mergeSort (r := fun a b => (compare keys a b).isLE)
    (s := fun a b => (rank keys a b).isLE) (f := id) (l := records) fun a left b right =>
      congrArg Ordering.isLE (compare_eq_rank comparable left right)
  rwa [List.map_id, List.map_id] at sorts

theorem IsComparable.perm {others : List Value} (comparable : key.IsComparable records)
    (perm : others.Perm records) : key.IsComparable others :=
  comparable.imp (fun numbers record member => numbers record (perm.mem_iff.mp member))
    fun texts record member => texts record (perm.mem_iff.mp member)

/-- The first of several keys sorts last. -/
theorem sort_cons (comparable : ∀ one ∈ key :: keys, one.IsComparable records) :
    sort (key :: keys) records = sort [key] (sort keys records) := by
  obtain ⟨first, others⟩ := List.forall_mem_cons.mp comparable
  have perm : (sort keys records).Perm records := List.mergeSort_perm _ _
  have single : ∀ a b, rank [key] a b = key.rankBy a b := by
    intro a b
    exact Ordering.then_eq
  rw [sort_eq_mergeSort_rank comparable,
    sort_eq_mergeSort_rank (List.forall_mem_singleton.mpr (first.perm perm)),
    sort_eq_mergeSort_rank others]
  simp only [single]
  exact StableSort.mergeSort_compareLex records

/-! ## The sort as a step -/

/-- What a stable sort by sort keys gives: the same records, none behind one that has to come later,
and records that tie on all keys in the order in which they stood. -/
structure IsStableSort (keys : List SortKey) (records sorted : List Value) : Prop where
  perm : sorted.Perm records
  ordered : sorted.Pairwise fun a b => (compare keys a b).isLE
  kept : ∀ a ∈ records, sorted.filter (fun b => compare keys a b == .eq) =
    records.filter fun b => compare keys a b == .eq

/-- Among comparable records, those that tie with one of them on all keys share its places. -/
theorem filter_tied (comparable : ∀ key ∈ keys, key.IsComparable records) {a : Value}
    (member : a ∈ records) {others : List Value} (within : ∀ b ∈ others, b ∈ records) :
    others.filter (fun b => compare keys a b == .eq) =
      others.filter (StableSort.ties (fun a b => (rank keys a b).isLE) a) := by
  apply List.filter_congr
  intro b other
  rw [compare_eq_rank comparable member (within b other), StableSort.ties_isLE]

theorem isStableSort_iff (comparable : ∀ key ∈ keys, key.IsComparable records)
    {sorted : List Value} : IsStableSort keys records sorted ↔
      StableSort.IsStableSort (fun a b => (rank keys a b).isLE) records sorted := by
  have order (perm : sorted.Perm records) : (sorted.Pairwise fun a b => (compare keys a b).isLE) ↔
      sorted.Pairwise fun a b => (rank keys a b).isLE := by
    apply List.Pairwise.iff_of_mem
    intro a b left right
    rw [compare_eq_rank comparable (perm.mem_iff.mp left) (perm.mem_iff.mp right)]
  have tied (perm : sorted.Perm records) {a : Value} (member : a ∈ records) :=
    And.intro (filter_tied comparable member fun _ => perm.mem_iff.mp)
      (filter_tied comparable member fun _ => id)
  constructor
  · intro stable
    refine ⟨stable.perm, (order stable.perm).mp stable.ordered, fun a member => ?_⟩
    obtain ⟨before, after⟩ := tied stable.perm member
    rw [← before, ← after]
    exact stable.kept a member
  · intro stable
    refine ⟨stable.perm, (order stable.perm).mpr stable.ordered, fun a member => ?_⟩
    obtain ⟨before, after⟩ := tied stable.perm member
    rw [before, after]
    exact stable.kept a member

/-- Of comparable records there is one stable sort. -/
theorem isStableSort_iff_eq_sort (comparable : ∀ key ∈ keys, key.IsComparable records)
    {sorted : List Value} : IsStableSort keys records sorted ↔ sorted = sort keys records := by
  rw [isStableSort_iff comparable, sort_eq_mergeSort_rank comparable]
  constructor
  · intro stable
    exact stable.eq_mergeSort (fun _ _ _ => Std.TransCmp.isLE_trans) (StableSort.isLE_total _)
  · rintro rfl
    exact StableSort.isStableSort_mergeSort (fun _ _ _ => Std.TransCmp.isLE_trans)
      (StableSort.isLE_total _) records

end SortKey

/-! ## Filters by an order -/

namespace Filter

theorem apply_sort (order : Value) (records : List Value) :
    apply [(.str "sort", order)] records = SortKey.sort (SortKey.ofValue order) records :=
  congrArg (SortKey.sort (SortKey.ofValue order)) (List.filter_true records)

end Filter

namespace Query

variable {collection : Collection} {keys : List SortKey} {records : List Value}

/-- Sorts by the single keys, the last key first, lead to the records sorted by all keys. -/
theorem leadsTo_keys (collection : Collection)
    (comparable : ∀ key ∈ keys, key.IsComparable records) :
    LeadsTo collection (holding records)
      (keys.reverse.map fun key => Filter.only "orderBy" (.list [.sortKey key]))
      (holding (SortKey.sort keys records)) := by
  induction keys with
  | nil =>
    rw [SortKey.sort_nil]
    exact leadsTo_nil
  | cons key keys ih =>
    have last := leadsTo_only collection (holding (SortKey.sort keys records)) "orderBy"
      (.list [.sortKey key])
    rw [Filter.apply_orderBy] at last
    rw [List.reverse_cons, List.map_append, SortKey.sort_cons comparable]
    exact (ih (List.forall_mem_cons.mp comparable).2).append last

/-- **A filter by an order is the stable sort.** On records that every sort key of the order can
compare, a filter by the order, under either of its names, leaves the one stable sort of the
records: a permutation, no record behind one that has to come later, and records that tie on all
keys as they stood, also under descending keys. Filters by the single keys, the last key first, lead
to the same records. -/
theorem perform_order (collection : Collection) (query : Query) {name : String}
    (named : name = "orderBy" ∨ name = "sort") {order : Value}
    (comparable : ∀ key ∈ SortKey.ofValue order, key.IsComparable (query.current collection))
    (context : Value) :
    ∃ sorted,
      query.perform collection (.filter (.value (.map [(.str name, order)])) context) =
        ⟨holding sorted, .ok .self, []⟩ ∧
      (∀ other, SortKey.IsStableSort (SortKey.ofValue order) (query.current collection) other ↔
        other = sorted) ∧
      LeadsTo collection (holding (query.current collection))
        ((SortKey.ofValue order).reverse.map fun key =>
          Filter.only "orderBy" (.list [.sortKey key]))
        (holding sorted) := by
  refine ⟨SortKey.sort (SortKey.ofValue order) (query.current collection), ?_,
    fun other => SortKey.isStableSort_iff_eq_sort comparable, leadsTo_keys collection comparable⟩
  have applied : Filter.apply [(.str name, order)] (query.current collection) =
      SortKey.sort (SortKey.ofValue order) (query.current collection) := by
    rcases named with rfl | rfl
    · exact Filter.apply_orderBy order _
    · exact Filter.apply_sort order _
  rw [← applied]
  rfl

/-- A descending key finds texts that differ in case only, and an ascending one a number and a truth
value of the same value: the two records tie and stay as they stood. -/
theorem perform_order_of_ties :
    let record := fun (id : Int) (s : String) (n : Value) =>
      Value.map [(.str "id", .int id), (.str "s", .str s), (.str "n", n)]
    let first := record 1 "a" (.int 2)
    let second := record 2 "b" (.float (.finite false 1 0))
    let third := record 3 "B" (.bool true)
    let collection : Collection := ⟨.str "id", .blank ["id"], []⟩
    let query := holding [first, second, third]
    let order := Value.list [.list [.str "s", .str "desc"], .str "n"]
    let sorted := [second, third, first]
    ("orderBy" = "orderBy" ∨ "orderBy" = "sort") ∧
      (∀ key ∈ SortKey.ofValue order, key.IsComparable [first, second, third]) ∧
      query.perform collection (.filter (.value (.map [(.str "orderBy", order)])) .null) =
        ⟨holding sorted, .ok .self, []⟩ ∧
      (∀ other, SortKey.IsStableSort (SortKey.ofValue order) [first, second, third] other ↔
        other = sorted) ∧
      LeadsTo collection query
        [Filter.only "orderBy" (.list [.sortKey ⟨"n", .ascending⟩]),
          Filter.only "orderBy" (.list [.sortKey ⟨"s", .descending⟩])]
        (holding sorted) := by
  intro record first second third collection query order sorted
  have down : Direction.ofValue (.str "desc") = .descending := by decide
  have keys : SortKey.ofValue order = [⟨"s", .descending⟩, ⟨"n", .ascending⟩] :=
    congrArg (fun direction => [SortKey.mk "s" direction, ⟨"n", .ascending⟩]) down
  have comparable : ∀ key ∈ SortKey.ofValue order, key.IsComparable [first, second, third] := by
    rw [keys, List.forall_mem_cons, List.forall_mem_singleton]
    constructor
    · right
      simp only [List.forall_mem_cons]
      exact ⟨⟨"a", rfl⟩, ⟨"b", rfl⟩, ⟨"B", rfl⟩, List.forall_mem_nil _⟩
    · left
      decide
  have named : "orderBy" = "orderBy" ∨ "orderBy" = "sort" := .inl rfl
  have moved : (SortKey.compare (SortKey.ofValue order) first second).isLE = false := by
    rw [keys]
    decide
  have moved' : (SortKey.compare (SortKey.ofValue order) first third).isLE = false := by
    rw [keys]
    decide
  have tied : (SortKey.compare (SortKey.ofValue order) second third).isLE = true := by
    rw [keys]
    decide
  obtain ⟨found, performed, unique, led⟩ := perform_order collection query named comparable .null
  have same : found = sorted := by
    have applied : Filter.apply [(.str "orderBy", order)] [first, second, third] = found :=
      congrArg (fun outcome => outcome.query.records) performed
    rw [← applied, Filter.apply_orderBy]
    simp [SortKey.sort, List.mergeSort, moved, moved', tied, sorted]
  subst same
  rw [keys] at led
  exact ⟨named, comparable, performed, unique, led⟩

end Query

end RecordQuery

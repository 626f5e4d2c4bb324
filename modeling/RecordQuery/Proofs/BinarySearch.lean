import Mathlib
import RecordQuery.BinarySearch

/-!
# Where a binary search ends

`IsCut test items position` says that the item just before the position passes the test and the item
at the position fails it. Binary search ends at such a position in every list, in order or not
(`isCut_cut`). What the cut says of the items further away follows from the order of the list:

* `IsCut.pairwise_insertIdx`: an item inserted at the cut of a sorted list leaves it sorted.
* `IsCut.passes_of_mem_take` and `IsCut.fails_of_mem_drop`: if the test never holds again after it
  failed once, all items before the cut pass it and all items from the cut on fail it.
* `filter_eq_slice`: the stretch between two such cuts is a filter of the list.
* `IsCut.le_of_imp`: a stronger test is cut no later than a weaker one.
-/

namespace RecordQuery.BinarySearch

variable {α : Type} {test : α → Bool} {items : List α}

/-- The item just before the position passes the test, and the item at the position fails it. -/
structure IsCut (test : α → Bool) (items : List α) (position : Nat) : Prop where
  within : position ≤ items.length
  before : ∀ i item, i + 1 = position → items[i]? = some item → test item = true
  atPosition : ∀ item, items[position]? = some item → test item = false

/-- Halving keeps the two edges of the stretch: the item before it passes, the item after it
fails. -/
theorem isCut_cut_of_edges {low high : Nat} (ordered : low ≤ high) (within : high ≤ items.length)
    (before : ∀ i item, i + 1 = low → items[i]? = some item → test item = true)
    (after : ∀ item, items[high]? = some item → test item = false) :
    IsCut test items (cut test items low high) := by
  fun_induction cut test items low high with
  | case1 low high open_ middle passes ih =>
    have bounds : low ≤ middle ∧ middle < high := by omega
    refine ih (by omega) within (fun i item position found => ?_) after
    cases Nat.succ.inj position
    rw [found] at passes
    exact passes
  | case2 low high open_ middle fails ih =>
    have bounds : low ≤ middle ∧ middle < high := by omega
    refine ih bounds.1 (by omega) before (fun item found => ?_)
    rw [found] at fails
    exact Bool.eq_false_of_not_eq_true fails
  | case3 low high closed =>
    have same : low = high := by omega
    exact ⟨by omega, before, same ▸ after⟩

/-- Binary search over a whole list ends at a cut. -/
theorem isCut_cut (test : α → Bool) (items : List α) :
    IsCut test items (cut test items 0 items.length) := by
  refine isCut_cut_of_edges (Nat.zero_le _) (Nat.le_refl _) (fun i item position => ?_) ?_
  · cases position
  · intro item found
    rw [List.getElem?_eq_none (Nat.le_refl _)] at found
    cases found

theorem insertIdx_eq_append {position : Nat} (within : position ≤ items.length) (new : α) :
    items.insertIdx position new = items.take position ++ new :: items.drop position := by
  induction items generalizing position with
  | nil =>
    cases Nat.le_zero.mp within
    rfl
  | cons item rest ih =>
    cases position with
    | zero => rfl
    | succ position =>
      rw [List.insertIdx_succ_cons, ih (Nat.le_of_succ_le_succ within)]
      rfl

/-- The items of a list from one position up to another are those that fail the test of the first
position and pass the test of the second, if each test holds exactly before its position. -/
theorem filter_eq_slice {first second : α → Bool} {start stop : Nat}
    (firstBefore : ∀ item ∈ items.take start, first item = true)
    (firstAfter : ∀ item ∈ items.drop start, first item = false)
    (secondBefore : ∀ item ∈ items.take stop, second item = true)
    (secondAfter : ∀ item ∈ items.drop stop, second item = false) :
    items.filter (fun item => !first item && second item) = (items.take stop).drop start := by
  have parts : items = (items.take stop).take start ++ (items.take stop).drop start ++
      items.drop stop := by
    rw [List.take_append_drop, List.take_append_drop]
  have tooLow : ((items.take stop).take start).filter
      (fun item => !first item && second item) = [] := by
    refine List.filter_eq_nil_iff.mpr fun item member => ?_
    rw [List.take_take, Nat.min_comm, ← List.take_take] at member
    simp [firstBefore item (List.mem_of_mem_take member)]
  have tooHigh : (items.drop stop).filter (fun item => !first item && second item) = [] :=
    List.filter_eq_nil_iff.mpr fun item member => by simp [secondAfter item member]
  have between : ((items.take stop).drop start).filter
      (fun item => !first item && second item) = (items.take stop).drop start := by
    refine List.filter_eq_self.mpr fun item member => ?_
    have low := secondBefore item (List.mem_of_mem_drop member)
    rw [List.drop_take] at member
    simp [low, firstAfter item (List.mem_of_mem_take member)]
  conv_lhs => rw [parts]
  rw [List.filter_append, List.filter_append, tooLow, tooHigh, between, List.nil_append,
    List.append_nil]

namespace IsCut

variable {position : Nat}

/-- A cut of the images of items is a cut of the items. -/
theorem map_iff {β : Type} {f : β → α} {sources : List β} :
    IsCut test (sources.map f) position ↔ IsCut (fun source => test (f source)) sources position := by
  constructor
  · intro isCut
    refine ⟨by simpa only [List.length_map] using isCut.within, ?_, ?_⟩
    · intro i source next found
      exact isCut.before i (f source) next (by rw [List.getElem?_map, found]; rfl)
    · intro source found
      exact isCut.atPosition (f source) (by rw [List.getElem?_map, found]; rfl)
  · intro isCut
    refine ⟨by simpa only [List.length_map] using isCut.within, ?_, ?_⟩
    · intro i item next found
      rw [List.getElem?_map, Option.map_eq_some_iff] at found
      obtain ⟨source, found, rfl⟩ := found
      exact isCut.before i source next found
    · intro item found
      rw [List.getElem?_map, Option.map_eq_some_iff] at found
      obtain ⟨source, found, rfl⟩ := found
      exact isCut.atPosition source found

/-- The item before the cut passes the test, and so does whatever reaches down to it: if passing
carries over to earlier items, all items before the cut pass. -/
theorem passes_of_mem_take (isCut : IsCut test items position)
    (ordered : items.Pairwise fun a b => test b = true → test a = true) {item : α}
    (member : item ∈ items.take position) : test item = true := by
  obtain ⟨i, bound, rfl⟩ := List.mem_iff_getElem.mp member
  rw [List.length_take, Nat.lt_min] at bound
  have within := isCut.within
  have last := isCut.before (position - 1) items[position - 1] (by omega)
    (List.getElem?_eq_getElem (by omega))
  rw [List.getElem_take]
  rcases Nat.lt_or_eq_of_le (show i ≤ position - 1 by omega) with earlier | same
  · exact List.pairwise_iff_getElem.mp ordered i (position - 1) bound.2 (by omega) earlier last
  · simpa only [same] using last

/-- If passing carries over to earlier items, all items from the cut on fail the test. -/
theorem fails_of_mem_drop (isCut : IsCut test items position)
    (ordered : items.Pairwise fun a b => test b = true → test a = true) {item : α}
    (member : item ∈ items.drop position) : test item = false := by
  obtain ⟨i, bound, rfl⟩ := List.mem_iff_getElem.mp member
  rw [List.length_drop] at bound
  have first := isCut.atPosition items[position] (List.getElem?_eq_getElem (by omega))
  rw [List.getElem_drop]
  rcases Nat.eq_zero_or_pos i with rfl | later
  · exact first
  · by_contra passes
    have carried := List.pairwise_iff_getElem.mp ordered position (position + i) (by omega)
      (by omega) (by omega) (Bool.eq_true_of_not_eq_false passes)
    rw [first] at carried
    cases carried

/-- A stronger test is cut no later: the item at the later cut would pass both. -/
theorem le_of_imp {weaker : α → Bool} {later : Nat} (isCut : IsCut test items position)
    (isCutLater : IsCut weaker items later)
    (ordered : items.Pairwise fun a b => test b = true → test a = true)
    (imp : ∀ item ∈ items, test item = true → weaker item = true) : position ≤ later := by
  by_contra beyond
  have within := isCut.within
  have inside : later < items.length := by omega
  have member : items[later] ∈ items.take position :=
    List.mem_take_iff_getElem.mpr ⟨later, by omega, rfl⟩
  have passes := imp _ (List.getElem_mem inside) (isCut.passes_of_mem_take ordered member)
  rw [isCutLater.atPosition _ (List.getElem?_eq_getElem inside)] at passes
  cases passes

/-- In a sorted list an item that belongs after all that pass the test and before all that fail it
fits in at the cut. -/
theorem pairwise_insertIdx {R : α → α → Prop} (isCut : IsCut test items position)
    (trans : ∀ {a b c}, R a b → R b c → R a c) (sorted : items.Pairwise R) {new : α}
    (below : ∀ item ∈ items, test item = true → R item new)
    (above : ∀ item ∈ items, test item = false → R new item) :
    (items.insertIdx position new).Pairwise R := by
  have within := isCut.within
  have allBelow : ∀ item ∈ items.take position, R item new := by
    intro item member
    obtain ⟨i, bound, rfl⟩ := List.mem_iff_getElem.mp member
    rw [List.length_take, Nat.lt_min] at bound
    have last := below items[position - 1] (List.getElem_mem _)
      (isCut.before (position - 1) _ (by omega) (List.getElem?_eq_getElem (by omega)))
    rw [List.getElem_take]
    rcases Nat.lt_or_eq_of_le (show i ≤ position - 1 by omega) with earlier | same
    · exact trans (List.pairwise_iff_getElem.mp sorted i (position - 1) _ _ earlier) last
    · simpa only [same] using last
  have allAbove : ∀ item ∈ items.drop position, R new item := by
    intro item member
    obtain ⟨i, bound, rfl⟩ := List.mem_iff_getElem.mp member
    rw [List.length_drop] at bound
    have first := above items[position] (List.getElem_mem _)
      (isCut.atPosition _ (List.getElem?_eq_getElem (by omega)))
    rw [List.getElem_drop]
    rcases Nat.eq_zero_or_pos i with rfl | later
    · exact first
    · exact trans first (List.pairwise_iff_getElem.mp sorted position (position + i) _ _ (by omega))
  rw [← List.take_append_drop position items, List.pairwise_append] at sorted
  obtain ⟨sortedBefore, sortedAfter, across⟩ := sorted
  rw [insertIdx_eq_append within, List.pairwise_append, List.pairwise_cons]
  refine ⟨sortedBefore, ⟨allAbove, sortedAfter⟩, fun a left b right => ?_⟩
  rcases List.mem_cons.mp right with rfl | right
  · exact allBelow a left
  · exact across a left b right

end IsCut

end RecordQuery.BinarySearch

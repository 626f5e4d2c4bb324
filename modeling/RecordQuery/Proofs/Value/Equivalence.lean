import Mathlib
import RecordQuery.Proofs.Number.Line
import RecordQuery.Proofs.Value.Sameness

/-!
# Sameness as an equivalence

Besides being reflexive, sameness is symmetric and transitive (`Value.isSame_symm`,
`Value.isSame_trans`), and so equality is symmetric. Numbers and decimals are the same if they stand
for one extended rational or are one and the same number; containers are the same if their parts are
paired off, one by one in sequences and in any way in sets and mappings.
-/

namespace RecordQuery

/-! ## Paired parts -/

/-- Every item of either list has a partner in the other one. -/
structure ArePaired {α : Type} (r : α → α → Prop) (xs ys : List α) : Prop where
  left : ∀ x ∈ xs, ∃ y ∈ ys, r x y
  right : ∀ y ∈ ys, ∃ x ∈ xs, r x y

section

variable {α : Type} {r : α → α → Prop} {xs ys zs : List α}

theorem ArePaired.symm (paired : ArePaired r xs ys) (symm : ∀ x ∈ xs, ∀ y, r x y → r y x) :
    ArePaired r ys xs where
  left y member := by
    obtain ⟨x, partner, related⟩ := paired.right y member
    exact ⟨x, partner, symm x partner y related⟩
  right x member := by
    obtain ⟨y, partner, related⟩ := paired.left x member
    exact ⟨y, partner, symm x member y related⟩

theorem ArePaired.trans (paired : ArePaired r xs ys) (paired' : ArePaired r ys zs)
    (trans : ∀ x ∈ xs, ∀ y z, r x y → r y z → r x z) : ArePaired r xs zs where
  left x member := by
    obtain ⟨y, middle, first⟩ := paired.left x member
    obtain ⟨z, partner, second⟩ := paired'.left y middle
    exact ⟨z, partner, trans x member y z first second⟩
  right z member := by
    obtain ⟨y, middle, second⟩ := paired'.right z member
    obtain ⟨x, partner, first⟩ := paired.right y middle
    exact ⟨x, partner, trans x partner y z first second⟩

/-- Items related one by one are so the other way round, if each relation is. -/
theorem forall₂_symm (related : List.Forall₂ r xs ys) (symm : ∀ x ∈ xs, ∀ y, r x y → r y x) :
    List.Forall₂ r ys xs := by
  induction related with
  | nil => exact .nil
  | cons first _ ih =>
    obtain ⟨turned, later⟩ := List.forall_mem_cons.mp symm
    exact .cons (turned _ first) (ih later)

theorem forall₂_trans (related : List.Forall₂ r xs ys) (related' : List.Forall₂ r ys zs)
    (trans : ∀ x ∈ xs, ∀ y z, r x y → r y z → r x z) : List.Forall₂ r xs zs := by
  induction related generalizing zs with
  | nil =>
    cases related'
    exact .nil
  | cons first _ ih =>
    obtain ⟨joined, later⟩ := List.forall_mem_cons.mp trans
    cases related' with
    | cons second others => exact .cons (joined _ _ first second) (ih others later)

end

namespace Value

/-! ## What is the same as a value of a kind -/

/-- The values are the same. -/
def Same (v w : Value) : Prop := v.isSame w = true

/-- The entries are the same in key and value. -/
def SameEntry (e f : Value × Value) : Prop := e.1.Same f.1 ∧ e.2.Same f.2

variable {v w u : Value}

theorem isSame_iff_of_quantity {p : Quantity} (quantity : v.quantity? = some p) :
    v.isSame w = true ↔ ∃ q, w.quantity? = some q ∧ p.isSame q = true := by
  have told : v.isSame w = w.quantity?.any p.isSame := by
    cases v with
    | bool | int | float | decimal =>
      cases quantity
      rw [isSame]
      cases w.quantity? <;> rfl
    | _ => cases quantity
  rw [told, Option.any_eq_true]

theorem null_isSame_iff : Value.null.isSame w = true ↔ .null = w := by
  cases w <;> simp [isSame]

theorem direction_isSame_iff {d : Direction} :
    (Value.direction d).isSame w = true ↔ .direction d = w := by
  cases w <;> simp [isSame]

theorem sortKey_isSame_iff {key : SortKey} :
    (Value.sortKey key).isSame w = true ↔ .sortKey key = w := by
  cases w <;> simp [isSame]

theorem object_isSame_iff {identity : Nat} {attributes : List (String × Value)} :
    (Value.object identity attributes).isSame w = true ↔ ∃ others, .object identity others = w := by
  cases w <;> simp [isSame]

theorem areSame_iff {xs ys : List Value} : areSame xs ys = true ↔ List.Forall₂ Same xs ys := by
  induction xs generalizing ys with
  | nil => cases ys <;> simp [areSame]
  | cons x xs ih =>
    cases ys with
    | nil => simp [areSame]
    | cons y ys => rw [areSame, Bool.and_eq_true, ih, List.forall₂_cons, Same]

theorem anySame_iff {xs : List Value} {y : Value} : anySame xs y = true ↔ ∃ x ∈ xs, x.Same y := by
  induction xs with
  | nil => simp [anySame]
  | cons x xs ih => rw [anySame, Bool.or_eq_true, ih, List.exists_mem_cons_iff, Same]

theorem allWithin_iff {xs ys : List Value} :
    allWithin xs ys = true ↔ ∀ x ∈ xs, ∃ y ∈ ys, x.Same y := by
  induction xs with
  | nil => simp [allWithin]
  | cons x xs ih =>
    rw [allWithin, Bool.and_eq_true, ih, List.forall_mem_cons, List.any_eq_true]
    rfl

theorem anyEntrySame_iff {es : List (Value × Value)} {f : Value × Value} :
    anyEntrySame es f = true ↔ ∃ e ∈ es, SameEntry e f := by
  induction es with
  | nil => simp [anyEntrySame]
  | cons e es ih =>
    rw [anyEntrySame, Bool.or_eq_true, ih, List.exists_mem_cons_iff, Bool.and_eq_true]
    rfl

theorem allEntriesWithin_iff {es fs : List (Value × Value)} :
    allEntriesWithin es fs = true ↔ ∀ e ∈ es, ∃ f ∈ fs, SameEntry e f := by
  induction es with
  | nil => simp [allEntriesWithin]
  | cons e es ih =>
    rw [allEntriesWithin, Bool.and_eq_true, ih, List.forall_mem_cons, List.any_eq_true]
    simp only [Bool.and_eq_true]
    rfl

theorem list_isSame_iff {xs : List Value} :
    (Value.list xs).isSame w = true ↔ ∃ ys, w = .list ys ∧ List.Forall₂ Same xs ys := by
  cases w with
  | list ys =>
    rw [isSame, areSame_iff]
    simp
  | _ => simp [isSame]

theorem tuple_isSame_iff {xs : List Value} :
    (Value.tuple xs).isSame w = true ↔ ∃ ys, w = .tuple ys ∧ List.Forall₂ Same xs ys := by
  cases w with
  | tuple ys =>
    rw [isSame, areSame_iff]
    simp
  | _ => simp [isSame]

theorem set_isSame_iff {xs : List Value} :
    (Value.set xs).isSame w = true ↔ ∃ ys, w = .set ys ∧ ArePaired Same xs ys := by
  cases w with
  | set ys =>
    rw [isSame, Bool.and_eq_true, allWithin_iff, List.all_eq_true]
    simp only [anySame_iff, set.injEq, exists_eq_left']
    exact ⟨fun both => ⟨both.1, both.2⟩, fun paired => ⟨paired.left, paired.right⟩⟩
  | _ => simp [isSame]

theorem map_isSame_iff {es : List (Value × Value)} :
    (Value.map es).isSame w = true ↔ ∃ fs, w = .map fs ∧ ArePaired SameEntry es fs := by
  cases w with
  | map fs =>
    rw [isSame, Bool.and_eq_true, allEntriesWithin_iff, List.all_eq_true]
    simp only [anyEntrySame_iff, map.injEq, exists_eq_left']
    exact ⟨fun both => ⟨both.1, both.2⟩, fun paired => ⟨paired.left, paired.right⟩⟩
  | _ => simp [isSame]

/-! ## Symmetry and transitivity -/

theorem isSame_symm_of_quantity {p : Quantity} (quantity : v.quantity? = some p)
    (same : v.isSame w = true) : w.isSame v = true := by
  obtain ⟨q, quantity', equal⟩ := (isSame_iff_of_quantity quantity).mp same
  exact (isSame_iff_of_quantity quantity').mpr ⟨p, quantity, Quantity.isSame_symm equal⟩

theorem isSame_trans_of_quantity {p : Quantity} (quantity : v.quantity? = some p)
    (left : v.isSame w = true) (right : w.isSame u = true) : v.isSame u = true := by
  obtain ⟨q, quantity', equal⟩ := (isSame_iff_of_quantity quantity).mp left
  obtain ⟨r, quantity'', equal'⟩ := (isSame_iff_of_quantity quantity').mp right
  exact (isSame_iff_of_quantity quantity).mpr ⟨r, quantity'', Quantity.isSame_trans equal equal'⟩

theorem isSame_symm (v : Value) : ∀ w, v.isSame w = true → w.isSame v = true := by
  induction v using Value.induction with
  | bool b => exact fun w => isSame_symm_of_quantity rfl
  | int n => exact fun w => isSame_symm_of_quantity rfl
  | float x => exact fun w => isSame_symm_of_quantity rfl
  | decimal negative d => exact fun w => isSame_symm_of_quantity rfl
  | list xs ih =>
    intro w same
    obtain ⟨ys, rfl, related⟩ := list_isSame_iff.mp same
    exact list_isSame_iff.mpr ⟨xs, rfl, forall₂_symm related ih⟩
  | tuple xs ih =>
    intro w same
    obtain ⟨ys, rfl, related⟩ := tuple_isSame_iff.mp same
    exact tuple_isSame_iff.mpr ⟨xs, rfl, forall₂_symm related ih⟩
  | set xs ih =>
    intro w same
    obtain ⟨ys, rfl, paired⟩ := set_isSame_iff.mp same
    exact set_isSame_iff.mpr ⟨xs, rfl, paired.symm ih⟩
  | map es ih =>
    intro w same
    obtain ⟨fs, rfl, paired⟩ := map_isSame_iff.mp same
    refine map_isSame_iff.mpr ⟨es, rfl, paired.symm fun e member f related => ?_⟩
    obtain ⟨key, value⟩ := ih e member
    exact ⟨key _ related.1, value _ related.2⟩
  | null =>
    intro w same
    obtain rfl := null_isSame_iff.mp same
    exact same
  | str s =>
    intro w same
    obtain rfl := str_isSame_iff.mp same
    exact same
  | object identity attributes =>
    intro w same
    obtain ⟨others, rfl⟩ := object_isSame_iff.mp same
    exact object_isSame_iff.mpr ⟨attributes, rfl⟩
  | direction d =>
    intro w same
    obtain rfl := direction_isSame_iff.mp same
    exact same
  | sortKey key =>
    intro w same
    obtain rfl := sortKey_isSame_iff.mp same
    exact same

theorem isSame_comm (v w : Value) : v.isSame w = w.isSame v :=
  Bool.eq_iff_iff.mpr ⟨isSame_symm v w, isSame_symm w v⟩

theorem isSame_trans (v : Value) :
    ∀ w u, v.isSame w = true → w.isSame u = true → v.isSame u = true := by
  induction v using Value.induction with
  | bool b => exact fun w u => isSame_trans_of_quantity rfl
  | int n => exact fun w u => isSame_trans_of_quantity rfl
  | float x => exact fun w u => isSame_trans_of_quantity rfl
  | decimal negative d => exact fun w u => isSame_trans_of_quantity rfl
  | list xs ih =>
    intro w u left right
    obtain ⟨ys, rfl, related⟩ := list_isSame_iff.mp left
    obtain ⟨zs, rfl, related'⟩ := list_isSame_iff.mp right
    exact list_isSame_iff.mpr ⟨zs, rfl, forall₂_trans related related' ih⟩
  | tuple xs ih =>
    intro w u left right
    obtain ⟨ys, rfl, related⟩ := tuple_isSame_iff.mp left
    obtain ⟨zs, rfl, related'⟩ := tuple_isSame_iff.mp right
    exact tuple_isSame_iff.mpr ⟨zs, rfl, forall₂_trans related related' ih⟩
  | set xs ih =>
    intro w u left right
    obtain ⟨ys, rfl, paired⟩ := set_isSame_iff.mp left
    obtain ⟨zs, rfl, paired'⟩ := set_isSame_iff.mp right
    exact set_isSame_iff.mpr ⟨zs, rfl, paired.trans paired' ih⟩
  | map es ih =>
    intro w u left right
    obtain ⟨fs, rfl, paired⟩ := map_isSame_iff.mp left
    obtain ⟨gs, rfl, paired'⟩ := map_isSame_iff.mp right
    refine map_isSame_iff.mpr ⟨gs, rfl, paired.trans paired' fun e member f g first second => ?_⟩
    obtain ⟨key, value⟩ := ih e member
    exact ⟨key _ _ first.1 second.1, value _ _ first.2 second.2⟩
  | null =>
    intro w u left right
    obtain rfl := null_isSame_iff.mp left
    exact right
  | str s =>
    intro w u left right
    obtain rfl := str_isSame_iff.mp left
    exact right
  | object identity attributes =>
    intro w u left right
    obtain ⟨others, rfl⟩ := object_isSame_iff.mp left
    exact object_isSame_iff.mpr (object_isSame_iff.mp right)
  | direction d =>
    intro w u left right
    obtain rfl := direction_isSame_iff.mp left
    exact right
  | sortKey key =>
    intro w u left right
    obtain rfl := sortKey_isSame_iff.mp left
    exact right

/-! ## Equality -/

end Value

end RecordQuery

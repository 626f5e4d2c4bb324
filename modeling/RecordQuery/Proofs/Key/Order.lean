import Mathlib
import RecordQuery.Key
import RecordQuery.Proofs.Number.Line
import RecordQuery.Value.Order

/-!
# The order of keys

Key parts other than not-a-number have places on one line: missing values first, then numbers as
extended rationals, then texts. `KeyPart.rankOrder` is the order of that line and `Key.rankOrder` its
lexicographic extension; both are total preorders on all parts and keys, which the comparison of keys
itself is not.

* `KeyPart.compare_eq_rankOrder` and `Key.compare_eq_rankOrder`: away from not-a-number, parts and
  keys compare by their places.
* `Key.rankOrder_take_isLE`: cutting two keys at one length keeps their order.
* `Value.compare?_eq_some`: numbers compare as values as they do as parts of keys.
-/

namespace RecordQuery

/-! ## Parts -/

namespace KeyPart

/-- The line of key parts. -/
abbrev Rank := WithBot (WithBot (WithTop ℚ) ⊕ₗ String)

/-- All parts have a place on the line but not-a-number. -/
def IsPlaced : KeyPart → Prop
  | .number n => n.place?.isSome
  | _ => True

/-- The place of a part on the line; not-a-number is put anywhere. -/
def rank : KeyPart → Rank
  | .missing => ⊥
  | .number n =>
    (toLex (.inl ((n.place?.map Place.value).getD ⊥)) : WithBot (WithTop ℚ) ⊕ₗ String)
  | .text s => (toLex (.inr s) : WithBot (WithTop ℚ) ⊕ₗ String)

/-- The order of parts by their places. -/
def rankOrder : KeyPart → KeyPart → Ordering := compareOn rank

instance : Std.TransCmp rankOrder := inferInstanceAs (Std.TransCmp (compareOn rank))

theorem isPlaced_ofValue {v : Value} (proper : v.isNaN = false) : (ofValue v).IsPlaced := by
  cases v with
  | float x =>
    cases x with
    | nan payload => cases proper
    | infinite negative => cases negative <;> rfl
    | finite negative mantissa exponent => cases negative <;> rfl
  | bool b => rfl
  | int n => rfl
  | _ => trivial

/-- Parts that have places compare by them. -/
theorem compare_eq_rankOrder {a b : KeyPart} (placed : a.IsPlaced) (placed' : b.IsPlaced) :
    a.compare b = a.rankOrder b := by
  rw [rankOrder, compareOn, ← cmp_eq_compare]
  cases a with
  | missing => cases b <;> simp [compare, rank, cmp, cmpUsing]
  | text s =>
    cases b with
    | text t =>
      rw [compare, ← cmp_eq_compare]
      simp [rank, cmp, cmpUsing]
    | _ => simp [compare, rank, cmp, cmpUsing]
  | number m =>
    cases b with
    | number n =>
      obtain ⟨p, place⟩ := Option.isSome_iff_exists.mp placed
      obtain ⟨q, place'⟩ := Option.isSome_iff_exists.mp placed'
      simp [compare, Numeric.compare?, rank, place, place', Place.compare_eq_cmp, cmp, cmpUsing]
    | _ => simp [compare, rank, cmp, cmpUsing]

end KeyPart

/-! ## Numbers among values -/

namespace KeyPart

theorem ofValue_of_numeric {v : Value} {n : Numeric} (numeric : v.numeric? = some n) :
    ofValue v = .number n := by
  cases v <;> simp_all [ofValue, Value.numeric?]

theorem ofValue_of_not_numeric {v : Value} (other : v.numeric? = none) :
    ofValue v = .missing ∨ ∃ s, ofValue v = .text s := by
  cases v <;> simp_all [ofValue, Value.numeric?]

end KeyPart

namespace Value

variable {v right : Value}

theorem quantity?_of_numeric {n : Numeric} (numeric : v.numeric? = some n) :
    v.quantity? = some (.numeric n) := by
  cases v <;> cases numeric <;> rfl

/-- Only numbers, truth values and decimals have an order with one of them. -/
theorem compare?_of_quantity {q : Quantity} (quantity : right.quantity? = some q) :
    v.compare? right = v.quantity?.bind fun p => p.compare? q := by
  cases v <;> cases right <;> simp_all [compare?, quantity?]

/-- Two numbers with places have one order, as values and as parts of keys. -/
theorem compare?_eq_some {m n : Numeric} (numeric : v.numeric? = some m)
    (numeric' : right.numeric? = some n) (proper : v.isNaN = false)
    (proper' : right.isNaN = false) :
    v.compare? right = some ((KeyPart.ofValue v).compare (KeyPart.ofValue right)) := by
  have placed := KeyPart.isPlaced_ofValue proper
  have placed' := KeyPart.isPlaced_ofValue proper'
  rw [KeyPart.ofValue_of_numeric numeric] at placed
  rw [KeyPart.ofValue_of_numeric numeric'] at placed'
  obtain ⟨p, place⟩ := Option.isSome_iff_exists.mp placed
  obtain ⟨q, place'⟩ := Option.isSome_iff_exists.mp placed'
  rw [compare?_of_quantity (quantity?_of_numeric numeric'), quantity?_of_numeric numeric,
    Option.bind_some, Quantity.compare?_numeric, KeyPart.ofValue_of_numeric numeric,
    KeyPart.ofValue_of_numeric numeric']
  simp [KeyPart.compare, Numeric.compare?, place, place']

end Value

/-! ## Keys -/

/-- A key argument without not-a-number among its components. -/
def Value.IsProperKey (v : Value) : Prop := ∀ item ∈ v.keyItems, item.isNaN = false

instance (v : Value) : Decidable v.IsProperKey :=
  inferInstanceAs (Decidable (∀ item ∈ v.keyItems, item.isNaN = false))

namespace Key

/-- All parts of the key have a place. -/
def IsPlaced (key : Key) : Prop := ∀ part ∈ key, part.IsPlaced

/-- The order of keys by the places of their parts. -/
def rankOrder : Key → Key → Ordering := List.compareLex KeyPart.rankOrder

instance : Std.TransCmp rankOrder :=
  inferInstanceAs (Std.TransCmp (List.compareLex KeyPart.rankOrder))

theorem isPlaced_toKey {v : Value} (proper : v.IsProperKey) : v.toKey.IsPlaced := by
  intro part member
  obtain ⟨item, listed, rfl⟩ := List.mem_map.mp member
  exact KeyPart.isPlaced_ofValue (proper item listed)

theorem IsPlaced.take {key : Key} (placed : key.IsPlaced) (n : Nat) : IsPlaced (key.take n) :=
  fun part member => placed part (List.mem_of_mem_take member)

/-- Keys of which all parts have places compare by them. -/
theorem compare_eq_rankOrder {a b : Key} (placed : a.IsPlaced) (placed' : b.IsPlaced) :
    a.compare b = a.rankOrder b := by
  induction a generalizing b with
  | nil => cases b <;> rfl
  | cons x xs ih =>
    cases b with
    | nil => rfl
    | cons y ys =>
      have heads := KeyPart.compare_eq_rankOrder (placed x List.mem_cons_self)
        (placed' y List.mem_cons_self)
      have tails := ih (fun part member => placed part (List.mem_cons_of_mem x member))
        (fun part member => placed' part (List.mem_cons_of_mem y member))
      rw [compare, heads, tails, rankOrder, List.compareLex_cons_cons]

/-- Cutting two keys at one length keeps their order. -/
theorem rankOrder_take_isLE {a b : Key} (n : Nat) (order : (a.rankOrder b).isLE) :
    (rankOrder (a.take n) (b.take n)).isLE := by
  induction n generalizing a b with
  | zero => rfl
  | succ n ih =>
    cases a with
    | nil => cases b <;> rfl
    | cons x xs =>
      cases b with
      | nil => cases order
      | cons y ys =>
        rw [rankOrder, List.compareLex_cons_cons, Ordering.isLE_then_iff_or] at order
        rw [List.take_succ_cons, List.take_succ_cons, rankOrder, List.compareLex_cons_cons,
          Ordering.isLE_then_iff_or]
        rcases order with less | ⟨tie, rest⟩
        · exact .inl less
        · exact .inr ⟨tie, ih rest⟩

end Key

end RecordQuery

import Mathlib
import RecordQuery.Proofs.Index.Range

/-!
# Lookups in an index

A lookup is the stretch between the two bounds of one boundary: before it stand the records that
lead less than the boundary, after it those that lead more. What is left leads just as the boundary
does, that is, the keys begin with it part by part (`Key.startsWith_eq`). A key of an index has one
part for each field, so a longer boundary begins none.
-/

namespace RecordQuery

namespace KeyPart

/-- Whether two parts are equal, numbers by their exact value. -/
def equals : KeyPart → KeyPart → Bool
  | .missing, .missing => true
  | .number a, .number b => a.equals b
  | .text s, .text t => s == t
  | _, _ => false

theorem compare_eq_iff_equals {a b : KeyPart} (placed : a.IsPlaced) (placed' : b.IsPlaced) :
    a.compare b = .eq ↔ a.equals b = true := by
  cases a with
  | missing => cases b <;> simp [compare, equals]
  | text s => cases b <;> simp [compare, equals]
  | number m =>
    cases b with
    | number n =>
      obtain ⟨p, place⟩ := Option.isSome_iff_exists.mp placed
      obtain ⟨q, place'⟩ := Option.isSome_iff_exists.mp placed'
      simp [compare, equals, Numeric.equals, Numeric.compare?, place, place']
    | _ => simp [compare, equals]

end KeyPart

namespace Key

/-- Whether a key begins with the parts of a boundary, each equal to the part at its place. -/
def startsWith : Key → Key → Bool
  | _, [] => true
  | [], _ :: _ => false
  | part :: key, wanted :: boundary => part.equals wanted && startsWith key boundary

theorem startsWith_iff {key boundary : Key} (placed : key.IsPlaced) (bounded : boundary.IsPlaced) :
    key.startsWith boundary = true ↔ Key.compare (key.take boundary.length) boundary = .eq := by
  induction boundary generalizing key with
  | nil => cases key <;> simp [startsWith, Key.compare]
  | cons wanted boundary ih =>
    cases key with
    | nil => simp [startsWith, Key.compare]
    | cons part key =>
      have heads := KeyPart.compare_eq_iff_equals (placed part List.mem_cons_self)
        (bounded wanted List.mem_cons_self)
      have tails := ih (fun p member => placed p (List.mem_cons_of_mem part member))
        (fun p member => bounded p (List.mem_cons_of_mem wanted member))
      simp [startsWith, Key.compare, Ordering.then_eq_eq, heads, tails]

/-- A key begins with a boundary just when its leading parts are neither less nor greater. -/
theorem startsWith_eq {key boundary : Key} (placed : key.IsPlaced) (bounded : boundary.IsPlaced) :
    key.startsWith boundary =
      (!key.leadsAtMost boundary false && key.leadsAtMost boundary true) := by
  rw [Bool.eq_iff_iff, startsWith_iff placed bounded]
  unfold leadsAtMost
  cases Key.compare (key.take boundary.length) boundary <;> simp

theorem startsWith_nil (key : Key) : key.startsWith [] = true := by
  cases key <;> rfl

/-- A key does not begin with a longer one. -/
theorem length_le_of_startsWith {key boundary : Key} (starts : key.startsWith boundary = true) :
    boundary.length ≤ key.length := by
  induction boundary generalizing key with
  | nil => simp
  | cons wanted boundary ih =>
    cases key with
    | nil => cases starts
    | cons part key =>
      have rest := ih (Bool.and_eq_true_iff.mp starts).2
      simpa using rest

end Key

namespace Index

variable {index : Index} {inserted : List Value}

/-- A range that ends with the boundary at which it begins is a lookup. -/
theorem between_self_eq_get (index : Index) (key : Value) {options : Options}
    (left : options.leftInclusive = true) (right : options.rightInclusive = true)
    (offset : options.offset.isNumber = false) (limit : options.limit.isNumber = false) :
    index.between key key options = index.get key := by
  rw [between_eq_slice index key key offset limit, left, right]
  rfl

/-- **A lookup is a filter by the beginning of the key.** In an index built without not-a-number
among the keys, a lookup gives, in the order of the index, just the records whose key begins with
the given one part by part; no key begins with one of more parts than there are fields, and each
begins with the empty one. The range from the key to itself, both ends included, is the same. -/
theorem Built.get_eq_filter (built : Built index inserted)
    (proper : ∀ record ∈ inserted, index.HasProperKey record) {key : Value}
    (keyProper : key.IsProperKey) :
    index.get key =
        (index.toList.filter fun record => (index.keyOf record).startsWith key.toKey) ∧
      (index.get key).Perm
        (inserted.filter fun record => (index.keyOf record).startsWith key.toKey) ∧
      (index.fields.length < key.keyItems.length → index.get key = []) ∧
      (key.keyItems = [] → index.get key = index.toList) ∧
      ∀ options : Options, options.leftInclusive = true → options.rightInclusive = true →
        options.offset.isNumber = false → options.limit.isNumber = false →
          index.between key key options = index.get key := by
  have placed := Key.isPlaced_toKey keyProper
  have lookup : index.get key =
      index.toList.filter fun record => (index.keyOf record).startsWith key.toKey := by
    rw [get, built.slice_eq_filter proper placed placed]
    apply List.filter_congr
    intro record member
    have listed := proper record (built.perm.mem_iff.mp member)
    rw [Key.startsWith_eq listed.isPlaced placed]
  refine ⟨lookup, ?_, ?_, ?_, ?_⟩
  · rw [lookup]
    exact built.perm.filter _
  · intro longer
    rw [lookup, List.filter_eq_nil_iff]
    intro record _ starts
    have fits := Key.length_le_of_startsWith starts
    rw [built.length_keyOf, Value.toKey, List.length_map] at fits
    omega
  · intro blank
    rw [lookup, List.filter_eq_self]
    intro record _
    rw [Value.toKey, blank]
    exact Key.startsWith_nil _
  · intro options left right offset limit
    exact between_self_eq_get index key left right offset limit

/-- A number is looked up by a truth value of its value, in an index of two fields, over records of
which one has no second field. -/
theorem get_eq_filter_of_truth :
    let one := Value.map [(.str "a", .int 1), (.str "b", .str "x"), (.str "id", .int 3)]
    let short := Value.map [(.str "a", .float (.finite false 1 0)), (.str "id", .int 4)]
    let two := Value.map [(.str "a", .int 2), (.str "b", .str "x"), (.str "id", .int 1)]
    let start : Index := .blank ["a", "b"]
    let index := ((start.insert two).insert one).insert short
    let key := Value.tuple [.bool true]
    Built index [two, one, short] ∧
      (∀ record ∈ [two, one, short], index.HasProperKey record) ∧
      key.IsProperKey ∧
      index.get key = [short, one] ∧
      index.get key =
        index.toList.filter fun record => (index.keyOf record).startsWith key.toKey := by
  intro one short two start index key
  have created : Index.create (.list [.str "a", .str "b"]) (.str "id") = .ok start := rfl
  have built : Built index [two, one, short] :=
    .insert short (.insert one (.insert two (.create created)))
  have keys : ∀ record ∈ [two, one, short], index.HasProperKey record := by decide
  have keyProper : key.IsProperKey := by decide
  exact ⟨built, keys, keyProper, by cbv, (built.get_eq_filter keys keyProper).1⟩

end Index

end RecordQuery

import RecordQuery.Value.Equality

/-!
# Sameness of values

Every value is the same as itself, not-a-number included, so a mapping holds every key that was set.
The proof goes by induction on the parts of a value (`Value.induction`): a container is the same as
itself once each of its items and entries is. A text is the same as no value but itself.
-/

namespace RecordQuery.Value

/-! ## Induction on parts -/

/-- What holds of every value without parts, and of a container once it holds of its parts, holds of
every value. -/
theorem induction {motive : Value → Prop} (null : motive .null) (bool : ∀ b, motive (.bool b))
    (int : ∀ n, motive (.int n)) (float : ∀ x, motive (.float x))
    (decimal : ∀ negative d, motive (.decimal negative d)) (str : ∀ s, motive (.str s))
    (list : ∀ items, (∀ item ∈ items, motive item) → motive (.list items))
    (tuple : ∀ items, (∀ item ∈ items, motive item) → motive (.tuple items))
    (set : ∀ items, (∀ item ∈ items, motive item) → motive (.set items))
    (map : ∀ entries, (∀ entry ∈ entries, motive entry.1 ∧ motive entry.2) →
      motive (.map entries))
    (object : ∀ identity attributes, motive (.object identity attributes))
    (direction : ∀ d, motive (.direction d)) (sortKey : ∀ key, motive (.sortKey key))
    (v : Value) : motive v :=
  @Value.rec motive (fun items => ∀ item ∈ items, motive item)
    (fun entries => ∀ entry ∈ entries, motive entry.1 ∧ motive entry.2) (fun _ => True)
    (fun entry => motive entry.1 ∧ motive entry.2) (fun _ => True)
    null bool int float decimal str list tuple set map
    (fun identity attributes _ => object identity attributes)
    direction sortKey (List.forall_mem_nil _)
    (fun _ _ first later => List.forall_mem_cons.mpr ⟨first, later⟩) (List.forall_mem_nil _)
    (fun _ _ first later => List.forall_mem_cons.mpr ⟨first, later⟩) trivial
    (fun _ _ _ _ => trivial) (fun _ _ key value => ⟨key, value⟩) (fun _ _ _ => trivial) v

/-! ## Values and themselves -/

theorem areSame_self {items : List Value} (each : ∀ v ∈ items, v.isSame v = true) :
    areSame items items = true := by
  induction items with
  | nil => rfl
  | cons v rest ih =>
    have further := ih fun w member => each w (List.mem_cons_of_mem v member)
    simp [areSame, each v List.mem_cons_self, further]

theorem allWithin_of_subset {items others : List Value} (each : ∀ v ∈ items, v.isSame v = true)
    (subset : ∀ v ∈ items, v ∈ others) : allWithin items others = true := by
  induction items with
  | nil => rfl
  | cons v rest ih =>
    have further := ih (fun w member => each w (List.mem_cons_of_mem v member))
      (fun w member => subset w (List.mem_cons_of_mem v member))
    have first : others.any (fun w => v.isSame w) = true :=
      List.any_eq_true.mpr ⟨v, subset v List.mem_cons_self, each v List.mem_cons_self⟩
    simp only [allWithin, first, further, Bool.and_self]

theorem anySame_of_mem {items : List Value} {v : Value} (member : v ∈ items)
    (same : v.isSame v = true) : anySame items v = true := by
  induction items with
  | nil => cases member
  | cons w rest ih =>
    rcases List.mem_cons.mp member with rfl | later
    · simp [anySame, same]
    · simp [anySame, ih later]

theorem allEntriesWithin_of_subset {entries others : List (Value × Value)}
    (each : ∀ e ∈ entries, e.1.isSame e.1 = true ∧ e.2.isSame e.2 = true)
    (subset : ∀ e ∈ entries, e ∈ others) : allEntriesWithin entries others = true := by
  induction entries with
  | nil => rfl
  | cons e rest ih =>
    obtain ⟨key, value⟩ := e
    have further := ih (fun f member => each f (List.mem_cons_of_mem _ member))
      (fun f member => subset f (List.mem_cons_of_mem _ member))
    have same := each (key, value) List.mem_cons_self
    have first : others.any (fun f => key.isSame f.1 && value.isSame f.2) = true :=
      List.any_eq_true.mpr ⟨(key, value), subset _ List.mem_cons_self, by simp [same]⟩
    simp only [allEntriesWithin, first, further, Bool.and_self]

theorem anyEntrySame_of_mem {entries : List (Value × Value)} {e : Value × Value}
    (member : e ∈ entries) (same : e.1.isSame e.1 = true ∧ e.2.isSame e.2 = true) :
    anyEntrySame entries e = true := by
  induction entries with
  | nil => cases member
  | cons f rest ih =>
    rcases List.mem_cons.mp member with rfl | later
    · simp [anyEntrySame, same]
    · simp [anyEntrySame, ih later]

/-- Every value is the same as itself. -/
theorem isSame_self (v : Value) : v.isSame v = true := by
  induction v using Value.induction with
  | bool | int | float | decimal => simp [isSame, quantity?, Quantity.isSame]
  | list items each => exact areSame_self each
  | tuple items each => exact areSame_self each
  | set items each =>
    have within := allWithin_of_subset each fun v member => member
    have members : items.all (fun v => anySame items v) = true :=
      List.all_eq_true.mpr fun v member => anySame_of_mem member (each v member)
    simp only [isSame, within, members, Bool.and_self]
  | map entries each =>
    have within := allEntriesWithin_of_subset each fun e member => member
    have members : entries.all (fun e => anyEntrySame entries e) = true :=
      List.all_eq_true.mpr fun e member => anyEntrySame_of_mem member (each e member)
    simp only [isSame, within, members, Bool.and_self]
  | _ => simp [isSame]

/-! ## Texts -/

theorem str_isSame_iff {s : String} {v : Value} : (Value.str s).isSame v = true ↔ v = .str s := by
  cases v with
  | str t =>
    rw [Value.str.injEq]
    exact (beq_iff_eq : (s == t) = true ↔ s = t).trans eq_comm
  | _ => exact iff_of_false Bool.false_ne_true Value.noConfusion

theorem isSame_str_iff {v : Value} {s : String} : v.isSame (.str s) = true ↔ v = .str s := by
  cases v with
  | str t =>
    rw [Value.str.injEq]
    exact (beq_iff_eq : (t == s) = true ↔ t = s)
  | _ => exact iff_of_false Bool.false_ne_true Value.noConfusion

end RecordQuery.Value

import Mathlib
import RecordQuery.Itq.Execution
import RecordQuery.Proofs.Index.Creation
import RecordQuery.Proofs.Value.Equivalence

/-!
# Columns of a result

The columns of a result are the keys of its rows, each listed where it first comes. Keys that are the
same share a column, spelled as the first of them, and two columns stand in the order of the places,
by row and then within the row, where their keys first come (`Result.columnsOf_order`). So rows that
are added only add columns at the end.
-/

namespace RecordQuery.Itq

open Value

/-! ## First places in a list -/

section

variable {α : Type} {p q : α → Bool}

/-- Behind a list, one more item decides which of two tests passes first only if no item of the list
passes either. -/
theorem findIdx_lt_findIdx_concat (items : List α) (item : α) :
    (items ++ [item]).findIdx p < (items ++ [item]).findIdx q ↔
      items.findIdx p < items.findIdx q ∨
        ((∀ other ∈ items, p other = false ∧ q other = false) ∧ p item = true ∧
          q item = false) := by
  induction items with
  | nil =>
    cases first : p item <;> cases second : q item <;> simp [List.findIdx_cons, first, second]
  | cons other items ih =>
    rw [List.cons_append, List.findIdx_cons, List.findIdx_cons, List.findIdx_cons,
      List.findIdx_cons, List.forall_mem_cons]
    cases first : p other <;> cases second : q other <;> simp [ih]

end

namespace Result

/-! ## Columns key by key -/

/-- The keys of rows, row by row. -/
def keysOf (rows : List (Entries Value)) : List Value := rows.flatMap fun row => row.map (·.1)

/-- The columns with those that a key brings besides. -/
def addColumn (columns : List Value) (key : Value) : List Value :=
  if key.memberOf columns then columns else columns ++ [key]

/-- The keys, each where it first comes. -/
def firsts (keys : List Value) : List Value := keys.foldl addColumn []

theorem addColumns_eq (columns : List Value) (row : Entries Value) :
    addColumns columns row = (row.map (·.1)).foldl addColumn columns := by
  rw [List.foldl_map]
  rfl

theorem columnsOf_eq_firsts (rows : List (Entries Value)) :
    columnsOf rows = firsts (keysOf rows) := by
  unfold columnsOf firsts keysOf
  rw [List.foldl_flatMap, funext₂ addColumns_eq]

theorem firsts_concat (keys : List Value) (key : Value) :
    firsts (keys ++ [key]) = addColumn (firsts keys) key := by
  unfold firsts
  rw [List.foldl_append]
  rfl

variable {keys : List Value} {rows : List (Entries Value)} {key : Value}

theorem addColumn_of_memberOf {columns : List Value} (held : key.memberOf columns = true) :
    addColumn columns key = columns := if_pos held

theorem addColumn_of_new {columns : List Value} (new : key.memberOf columns = false) :
    addColumn columns key = columns ++ [key] := if_neg (by rw [new]; exact Bool.false_ne_true)

/-- A key has a column just if the same key is among the keys. -/
theorem exists_same_firsts (keys : List Value) (key : Value) :
    (∃ column ∈ firsts keys, column.Same key) ↔ ∃ other ∈ keys, other.Same key := by
  induction keys using List.reverseRecOn with
  | nil => rfl
  | append_singleton keys last ih =>
    rw [firsts_concat]
    have listed : (∃ other ∈ keys ++ [last], other.Same key) ↔
        (∃ other ∈ keys, other.Same key) ∨ last.Same key := by
      simp [or_and_right, exists_or]
    rw [listed, ← ih]
    cases held : last.memberOf (firsts keys) with
    | true =>
      rw [addColumn_of_memberOf held]
      obtain ⟨column, member, same⟩ := anySame_iff.mp held
      constructor
      · exact .inl
      · intro found
        rcases found with found | new
        · exact found
        · exact ⟨column, member, isSame_trans column last key same new⟩
    | false =>
      rw [addColumn_of_new held]
      simp [or_and_right, exists_or]

theorem memberOf_firsts (keys : List Value) (key : Value) :
    key.memberOf (firsts keys) = key.memberOf keys := by
  unfold memberOf
  rw [Bool.eq_iff_iff, anySame_iff, anySame_iff]
  exact exists_same_firsts keys key

theorem sublist_firsts (keys : List Value) : List.Sublist (firsts keys) keys := by
  induction keys using List.reverseRecOn with
  | nil => exact List.Sublist.refl []
  | append_singleton keys last ih =>
    rw [firsts_concat]
    cases held : last.memberOf (firsts keys) with
    | true =>
      rw [addColumn_of_memberOf held]
      exact ih.trans (List.sublist_append_left keys [last])
    | false =>
      rw [addColumn_of_new held]
      exact ih.append (List.Sublist.refl [last])

/-- No two columns are the same. -/
theorem pairwise_firsts (keys : List Value) :
    (firsts keys).Pairwise fun column later => column.isSame later = false := by
  induction keys using List.reverseRecOn with
  | nil => exact List.Pairwise.nil
  | append_singleton keys last ih =>
    rw [firsts_concat]
    cases held : last.memberOf (firsts keys) with
    | true =>
      rw [addColumn_of_memberOf held]
      exact ih
    | false =>
      rw [addColumn_of_new held, List.pairwise_append]
      refine ⟨ih, List.pairwise_singleton _ last, fun column member later new => ?_⟩
      rw [List.mem_singleton.mp new]
      refine eq_false_of_ne_true fun same => ?_
      rw [memberOf, anySame_iff.mpr ⟨column, member, same⟩] at held
      cases held

theorem prefix_addColumn (columns : List Value) (key : Value) :
    columns <+: addColumn columns key := by
  unfold addColumn
  split
  · exact List.prefix_refl columns
  · exact List.prefix_append columns [key]

theorem prefix_foldl_addColumn (columns keys : List Value) :
    columns <+: keys.foldl addColumn columns := by
  induction keys generalizing columns with
  | nil => exact List.prefix_refl columns
  | cons key keys ih => exact (prefix_addColumn columns key).trans (ih (addColumn columns key))

theorem columnsOf_prefix (rows more : List (Entries Value)) :
    columnsOf rows <+: columnsOf (rows ++ more) := by
  rw [columnsOf_eq_firsts, columnsOf_eq_firsts]
  unfold firsts keysOf
  rw [List.flatMap_append, List.foldl_append]
  exact prefix_foldl_addColumn _ _

/-! ## Order -/

/-- The position in a list where a key first comes, its length if it does not come. -/
def placeIn (keys : List Value) (key : Value) : Nat := keys.findIdx fun other => other.isSame key

/-- One more key at the end decides which of two comes first only if neither has come before. -/
theorem placeIn_concat_lt_iff (keys : List Value) (last x y : Value) :
    placeIn (keys ++ [last]) x < placeIn (keys ++ [last]) y ↔
      placeIn keys x < placeIn keys y ∨
        ((¬ ∃ other ∈ keys, other.Same x) ∧ ¬ ∃ other ∈ keys, other.Same y) ∧
          last.Same x ∧ ¬ last.Same y := by
  have absent : (∀ other ∈ keys, other.isSame x = false ∧ other.isSame y = false) ↔
      (¬ ∃ other ∈ keys, other.Same x) ∧ ¬ ∃ other ∈ keys, other.Same y := by
    simp only [Same, not_exists, not_and, Bool.not_eq_true]
    constructor
    · intro each
      exact ⟨fun other member => (each other member).1, fun other member => (each other member).2⟩
    · intro neither other member
      exact ⟨neither.1 other member, neither.2 other member⟩
  rw [← absent, Same, Same, Bool.not_eq_true]
  exact findIdx_lt_findIdx_concat keys last

/-- The columns stand in the order in which the keys first come. -/
theorem placeIn_firsts_lt_iff (keys : List Value) (x y : Value) :
    placeIn (firsts keys) x < placeIn (firsts keys) y ↔ placeIn keys x < placeIn keys y := by
  induction keys using List.reverseRecOn with
  | nil => rfl
  | append_singleton keys last ih =>
    rw [firsts_concat, placeIn_concat_lt_iff, ← ih, ← exists_same_firsts keys x,
      ← exists_same_firsts keys y]
    cases held : last.memberOf (firsts keys) with
    | false => rw [addColumn_of_new held, placeIn_concat_lt_iff]
    | true =>
      rw [addColumn_of_memberOf held]
      obtain ⟨column, member, same⟩ := anySame_iff.mp held
      constructor
      · exact .inl
      · intro told
        rcases told with earlier | ⟨⟨missing, -⟩, first, -⟩
        · exact earlier
        · exact absurd ⟨column, member, isSame_trans column last x same first⟩ missing

/-- Where a key first comes in rows: the row, and the position in it. -/
def firstPlace (rows : List (Entries Value)) (key : Value) : Nat ×ₗ Nat :=
  let row := rows.findIdx fun row => row.hasKey key
  toLex (row, placeIn ((rows.getD row []).map (·.1)) key)

theorem firstPlace_cons (row : Entries Value) (rows : List (Entries Value)) (key : Value) :
    firstPlace (row :: rows) key =
      if row.hasKey key then toLex (0, placeIn (row.map (·.1)) key)
      else toLex ((ofLex (firstPlace rows key)).1 + 1, (ofLex (firstPlace rows key)).2) := by
  unfold firstPlace
  dsimp only
  rw [List.findIdx_cons]
  cases row.hasKey key <;> rfl

/-- A key of a row comes before the end of the row's keys. -/
theorem placeIn_lt_iff (row : Entries Value) (key : Value) :
    placeIn (row.map (·.1)) key < row.length ↔ row.hasKey key = true := by
  have length : (row.map (·.1)).length = row.length := List.length_map _
  unfold placeIn Entries.hasKey
  rw [← length, List.findIdx_lt_length, List.any_eq_true]
  simp

theorem placeIn_append (row : Entries Value) (keys : List Value) (key : Value) :
    placeIn (row.map (·.1) ++ keys) key =
      if row.hasKey key then placeIn (row.map (·.1)) key else placeIn keys key + row.length := by
  have inside := placeIn_lt_iff row key
  unfold placeIn at inside ⊢
  rw [List.findIdx_append, List.length_map]
  simp only [inside]

/-- Of two keys the one comes first in the rows that comes first row by row. -/
theorem placeIn_keysOf_lt_iff (rows : List (Entries Value)) (x y : Value) :
    placeIn (keysOf rows) x < placeIn (keysOf rows) y ↔ firstPlace rows x < firstPlace rows y := by
  induction rows with
  | nil => simp [keysOf, placeIn, firstPlace]
  | cons row rows ih =>
    have split : keysOf (row :: rows) = row.map (·.1) ++ keysOf rows := rfl
    rw [split, placeIn_append, placeIn_append, firstPlace_cons, firstPlace_cons]
    cases inX : row.hasKey x with
    | true =>
      have left := (placeIn_lt_iff row x).mpr inX
      cases inY : row.hasKey y with
      | true => simp [Prod.Lex.toLex_lt_toLex]
      | false =>
        simp only [Prod.Lex.toLex_lt_toLex, if_true, if_false, Bool.false_eq_true]
        omega
    | false =>
      cases inY : row.hasKey y with
      | true =>
        have right := (placeIn_lt_iff row y).mpr inY
        simp only [Prod.Lex.toLex_lt_toLex, if_true, if_false, Bool.false_eq_true]
        omega
      | false =>
        simp only [Prod.Lex.toLex_lt_toLex, if_false, Bool.false_eq_true]
        rw [Nat.add_lt_add_iff_right, ih, Prod.Lex.lt_iff, Nat.add_lt_add_iff_right,
          Nat.add_right_cancel_iff]

theorem memberOf_keysOf (rows : List (Entries Value)) (key : Value) :
    key.memberOf (keysOf rows) = rows.any fun row => row.hasKey key := by
  unfold memberOf keysOf
  rw [Bool.eq_iff_iff, anySame_iff, List.any_eq_true]
  simp only [List.mem_flatMap, List.mem_map, Entries.hasKey, List.any_eq_true]
  constructor
  · intro ⟨other, ⟨row, listed, entry, inside, named⟩, same⟩
    exact ⟨row, listed, entry, inside, named ▸ same⟩
  · intro ⟨row, listed, entry, inside, same⟩
    exact ⟨entry.1, ⟨row, listed, entry, inside, rfl⟩, same⟩

/-! ## Results -/

/-- What a statement gives has the columns of its rows. -/
theorem columns_of_execute {collection : Collection} {statement : Statement} {result : Result}
    (executed : statement.execute collection = .ok result) :
    result.columns = columnsOf result.rows := by
  unfold Statement.execute at executed
  split at executed
  · cases executed
    rfl
  · cases executed
    rfl
  · cases executed

/-- **Columns in first-seen order.** Whatever the rows, no two columns of their result are the same;
the columns are some of the keys of the rows, in order, and every key of some row has a column, and
no other key has; the column of a key stands before that of another one just if the key first comes
earlier, by row and then by position within the row; and more rows only add columns at the end. -/
theorem columnsOf_order (rows : List (Entries Value)) :
    (columnsOf rows).Pairwise (fun column later => column.isSame later = false) ∧
      List.Sublist (columnsOf rows) (keysOf rows) ∧
      (∀ key, key.memberOf (columnsOf rows) = rows.any fun row => row.hasKey key) ∧
      (∀ x y, placeIn (columnsOf rows) x < placeIn (columnsOf rows) y ↔
        firstPlace rows x < firstPlace rows y) ∧
      (∀ more, columnsOf rows <+: columnsOf (rows ++ more)) ∧
      ∀ (collection : Collection) (statement : Statement) (result : Result),
        statement.execute collection = .ok result → result.rows = rows →
          result.columns = columnsOf rows := by
  refine ⟨?_, ?_, fun key => ?_, fun x y => ?_, columnsOf_prefix rows, ?_⟩
  · rw [columnsOf_eq_firsts]
    exact pairwise_firsts (keysOf rows)
  · rw [columnsOf_eq_firsts]
    exact sublist_firsts (keysOf rows)
  · rw [columnsOf_eq_firsts, memberOf_firsts, memberOf_keysOf]
  · rw [columnsOf_eq_firsts, placeIn_firsts_lt_iff, placeIn_keysOf_lt_iff]
  · intro collection statement result executed given
    rw [← given]
    exact columns_of_execute executed

/-- A second row has a key of its own between two that it shares with the first, and a third row has
a truth value for a key that is a number in the second. -/
theorem columnsOf_order_of_shared :
    let first := [(Value.str "id", Value.int 1), (.str "b", .int 5)]
    let second := [(Value.str "id", Value.int 2), (.int 1, .null), (.str "b", .int 6)]
    let third := [(Value.str "id", Value.int 3), (.str "c", .null), (.bool true, .int 7)]
    let rows := [first, second, third]
    let byId : Index := .blank ["id"]
    let collection : Collection := ⟨.str "id", byId.insertAll (rows.map .map), []⟩
    let statement : Statement := ⟨.scan, [], [], 0, none⟩
    let result : Result := .ofRecords (rows.map .map)
    statement.execute collection = .ok result ∧ result.rows = rows ∧
      result.columns = columnsOf rows ∧
      columnsOf rows = [.str "id", .str "b", .int 1, .str "c"] := by
  intro first second third rows byId collection statement result
  have executed : statement.execute collection = .ok result := by cbv
  have given : result.rows = rows := rfl
  have columns := (columnsOf_order rows).2.2.2.2.2 collection statement result executed given
  exact ⟨executed, given, columns, rfl⟩

end Result

end RecordQuery.Itq

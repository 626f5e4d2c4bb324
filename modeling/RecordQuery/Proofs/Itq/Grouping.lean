import RecordQuery.Itq.Statement
import RecordQuery.Proofs.Clause.Name
import RecordQuery.Proofs.Entries

/-!
# Grouping conditions by field

The filter of a statement holds its conditions grouped by field, under names that tell the operator
and the way of joining. Conditions that pass their check come back from the groups as they were
written: while they are put in, the field of the last one keeps the last group, and every operator
goes to the end of it (`IsGrouped`).
-/

namespace RecordQuery.Itq

/-! ## Conditions as clauses -/

/-- The operator that a relation stands for. -/
def Relation.operator : Relation → Operator
  | .comparison .equal => ⟨.equal, .none⟩
  | .comparison .strictEqual => ⟨.strictEqual, .none⟩
  | .comparison .notEqual => ⟨.notEqual, .none⟩
  | .comparison .strictNotEqual => ⟨.strictNotEqual, .none⟩
  | .comparison .less => ⟨.less, .none⟩
  | .comparison .lessOrEqual => ⟨.lessOrEqual, .none⟩
  | .comparison .greater => ⟨.greater, .none⟩
  | .comparison .greaterOrEqual => ⟨.greaterOrEqual, .none⟩
  | .word false .isIn => ⟨.isIn, .none⟩
  | .word true .isIn => ⟨.notIn, .none⟩
  | .word false .contains => ⟨.contains, .none⟩
  | .word true .contains => ⟨.notContains, .none⟩
  | .word false .like => ⟨.like, .none⟩
  | .word true .like => ⟨.notLike, .none⟩
  | .word false .ilike => ⟨.like, { LikeFlags.none with ignoreCase := true }⟩
  | .word true .ilike => ⟨.notLike, { LikeFlags.none with ignoreCase := true }⟩
  | .word false .intersects => ⟨.intersects, .none⟩
  | .word true .intersects => ⟨.disjoint, .none⟩

/-- The filter knows every relation's operator by the name it is given under. -/
theorem Relation.ofName?_operatorName (relation : Relation) :
    Operator.ofName? relation.operatorName = some relation.operator := by
  rcases relation with c | ⟨negated, w⟩
  · cases c <;> rfl
  · cases negated <;> cases w <;> rfl

namespace Condition

/-- The clause that a condition is by itself. -/
def clause (condition : Condition) : Clause where
  field := condition.field
  path := .ofString condition.field
  name := condition.operatorName
  operator := some condition.relation.operator
  value := condition.value
  isOr := condition.isOr

theorem splitName_operatorName (relation : Relation) :
    Clause.splitName relation.operatorName = (relation.operatorName, false) := by
  rcases relation with c | ⟨negated, w⟩
  · cases c <;> rfl
  · cases negated <;> cases w <;> rfl

/-- The written name of a condition tells its operator and how it is joined. -/
theorem ofParts_writtenName (condition : Condition) :
    Clause.ofParts condition.field condition.writtenName condition.value = condition.clause := by
  have split : Clause.splitName condition.writtenName =
      (condition.operatorName, condition.isOr) := by
    unfold writtenName
    split
    · rename_i widens
      rw [Clause.splitName_bar, widens]
    · rename_i narrows
      rw [eq_false_of_ne_true narrows]
      exact splitName_operatorName condition.relation
  unfold Clause.ofParts
  rw [split]
  dsimp only
  rw [operatorName, Relation.ofName?_operatorName]
  rfl

/-! ## Groups -/

/-- What is asked of each field after one more condition. -/
def ask (asked : Entries Value) (condition : Condition) : Entries Value :=
  let field := .str condition.field
  let nested := match asked.find? field with
    | some (.map entries) => entries
    | _ => []
  asked.put field (.map (Entries.put nested (.str condition.writtenName) condition.value))

/-- The groups so far are those of the finished fields, then that of the current field, which holds
the operators used on it. -/
inductive IsGrouped : Entries Value → List String → Option String → List String → Prop where
  | start : IsGrouped [] [] none []
  | within {before nested : Entries Value} {finished used : List String} {field : String}
      (fields : ∀ other, Entries.hasKey before (.str other) = finished.contains other)
      (apart : finished.contains field = false)
      (names : ∀ name, Entries.hasKey nested (.str name) = used.contains name) :
      IsGrouped (before ++ [(.str field, .map nested)]) finished (some field) used

/-- The fields that the groups are of. -/
theorem IsGrouped.hasKey {asked : Entries Value} {finished used : List String}
    {current? : Option String} (grouped : IsGrouped asked finished current? used)
    (other : String) :
    asked.hasKey (.str other) = (current?.toList ++ finished).contains other := by
  cases grouped with
  | start => rfl
  | @within before nested finished used field fields =>
    rw [Entries.hasKey_append, Entries.hasKey_singleton, fields, Bool.or_comm, Bool.beq_comm]
    rfl

theorem ofEntries_append (entries others : Entries Value) :
    Clause.ofEntries (entries ++ others) = Clause.ofEntries entries ++ Clause.ofEntries others :=
  List.flatMap_append

theorem ofEntries_group (field : String) (nested : Entries Value) :
    Clause.ofEntries [(.str field, .map nested)] =
      nested.map fun (name, value) => Clause.ofParts field name.text value :=
  List.append_nil _

/-- A new operator on the current field goes to the end of the last group. -/
theorem IsGrouped.ask_current {asked : Entries Value} {finished used : List String}
    {condition : Condition} (grouped : IsGrouped asked finished (some condition.field) used)
    (unused : used.contains condition.writtenName = false) :
    IsGrouped (ask asked condition) finished (some condition.field)
        (condition.writtenName :: used) ∧
      Clause.ofEntries (ask asked condition) = Clause.ofEntries asked ++ [condition.clause] := by
  obtain - | ⟨fields, apart, names⟩ := grouped
  rename_i before nested
  have last : (Value.str condition.field).isSame (.str condition.field) = true :=
    beq_self_eq_true condition.field
  have notBefore := (fields condition.field).trans apart
  have found : Entries.find? (before ++ [(.str condition.field, .map nested)])
      (.str condition.field) = some (.map nested) := by
    rw [Entries.find?_append, Entries.find?_of_hasKey_eq_false notBefore, Option.none_or]
    unfold Entries.find?
    rw [List.find?_singleton, if_pos last]
    rfl
  have result : ask (before ++ [(.str condition.field, .map nested)]) condition = before ++
      [(.str condition.field,
        .map (nested ++ [(.str condition.writtenName, condition.value)]))] := by
    dsimp only [ask]
    rw [found]
    dsimp only
    rw [Entries.put_of_hasKey_eq_false ((names _).trans unused), Entries.put_last notBefore]
  rw [result]
  constructor
  · refine .within fields apart fun name => ?_
    rw [Entries.hasKey_append, Entries.hasKey_singleton, names, Bool.or_comm, Bool.beq_comm]
    rfl
  · rw [ofEntries_append, ofEntries_append, ofEntries_group, ofEntries_group, List.map_append,
      List.append_assoc, ← ofParts_writtenName]
    rfl

/-- A condition on a new field starts a group at the end. -/
theorem IsGrouped.ask_new {asked : Entries Value} {finished used : List String}
    {current? : Option String} {condition : Condition}
    (grouped : IsGrouped asked finished current? used) (other : current? ≠ some condition.field)
    (unfinished : finished.contains condition.field = false) :
    IsGrouped (ask asked condition) (current?.toList ++ finished) (some condition.field)
        [condition.writtenName] ∧
      Clause.ofEntries (ask asked condition) = Clause.ofEntries asked ++ [condition.clause] := by
  have apart : (current?.toList ++ finished).contains condition.field = false := by
    cases current? with
    | none => exact unfinished
    | some current =>
      have differs : (condition.field == current) = false :=
        beq_false_of_ne fun same => other (congrArg some same.symm)
      rw [Option.toList_some, List.singleton_append, List.contains_cons, differs, unfinished]
      rfl
  have missing := (grouped.hasKey condition.field).trans apart
  have result : ask asked condition = asked ++
      [(.str condition.field, .map [(.str condition.writtenName, condition.value)])] := by
    dsimp only [ask]
    rw [Entries.find?_of_hasKey_eq_false missing]
    exact Entries.put_of_hasKey_eq_false missing _
  rw [result]
  constructor
  · refine .within grouped.hasKey apart fun name => ?_
    rw [Entries.hasKey_singleton, Bool.beq_comm]
    exact (Bool.or_false _).symm
  · rw [ofEntries_append, ofEntries_group, ← ofParts_writtenName]
    rfl

/-- Further conditions that pass their check add their clauses in turn. -/
theorem ofEntries_foldl_ask {asked : Entries Value} {finished used : List String}
    {current? : Option String} {conditions : List Condition}
    (grouped : IsGrouped asked finished current? used)
    (checked : checkFrom finished current? used conditions = .ok ()) :
    Clause.ofEntries (conditions.foldl ask asked) =
      Clause.ofEntries asked ++ conditions.map clause := by
  induction conditions generalizing asked finished current? used with
  | nil => rw [List.foldl_nil, List.map_nil, List.append_nil]
  | cons condition rest ih =>
    rw [checkFrom] at checked
    rw [List.foldl_cons, List.map_cons, ← List.singleton_append, ← List.append_assoc]
    split at checked
    · rename_i same
      subst same
      split at checked
      · cases checked
      · rename_i unused
        obtain ⟨grouped, clauses⟩ := grouped.ask_current (eq_false_of_ne_true unused)
        rw [ih grouped checked, clauses]
    · rename_i other
      split at checked
      · cases checked
      · rename_i unfinished
        obtain ⟨grouped, clauses⟩ := grouped.ask_new other (eq_false_of_ne_true unfinished)
        rw [ih grouped checked, clauses]

/-- Conditions that pass their check come back from the filter as they were written. -/
theorem ofEntries_whereEntries {conditions : List Condition}
    (checked : check conditions = .ok ()) :
    Clause.ofEntries (whereEntries conditions) = conditions.map clause :=
  ofEntries_foldl_ask .start checked

end Condition

end RecordQuery.Itq

import RecordQuery.Itq.Tokenization
import RecordQuery.Query.Filter

/-!
# Statements

A statement tells how to retrieve records, which conditions they have to meet, how to sort them and
which stretch of them to keep. Conditions become the mapping of a structured filter, which groups
them by field; conditions whose order the grouping would change are refused.
-/

namespace RecordQuery.Itq

/-! ## Conditions -/

/-- The comparisons of a condition. -/
inductive Comparison where
  | equal
  | strictEqual
  | notEqual
  | strictNotEqual
  | less
  | lessOrEqual
  | greater
  | greaterOrEqual
  deriving DecidableEq, Repr, Inhabited

/-- The relations of a condition that are written as words and may be negated. -/
inductive WordRelation where
  | isIn
  | contains
  | like
  | ilike
  | intersects
  deriving DecidableEq, Repr, Inhabited

/-- How a condition relates a field to a value. -/
inductive Relation where
  | comparison (c : Comparison)
  | word (negated : Bool) (w : WordRelation)
  deriving DecidableEq, Repr, Inhabited

/-- The name of the filter operator for a relation. -/
def Relation.operatorName : Relation → String
  | .comparison .equal => "=="
  | .comparison .strictEqual => "==="
  | .comparison .notEqual => "!="
  | .comparison .strictNotEqual => "!=="
  | .comparison .less => "<"
  | .comparison .lessOrEqual => "<="
  | .comparison .greater => ">"
  | .comparison .greaterOrEqual => ">="
  | .word false .isIn => "in"
  | .word true .isIn => "notIn"
  | .word false .contains => "contains"
  | .word true .contains => "notContains"
  | .word false .like => "like"
  | .word true .like => "notLike"
  | .word false .ilike => "likei"
  | .word true .ilike => "notLikei"
  | .word false .intersects => "isectNotEmpty"
  | .word true .intersects => "isectEmpty"

/-- A condition on a field. -/
structure Condition where
  /-- The field, as a dotted path. -/
  field : String
  relation : Relation
  value : Value
  /-- Whether the condition is joined with `or`. -/
  isOr : Bool
  deriving Repr, Inhabited

namespace Condition

/-- The name of the filter operator, without a bar. -/
def operatorName (condition : Condition) : String := condition.relation.operatorName

/-- The operator's name as a filter writes it: with a bar in front to widen. -/
def writtenName (condition : Condition) : String :=
  if condition.isOr then "|" ++ condition.operatorName else condition.operatorName

/-- What the conditions ask of each field, in the order in which fields first come. -/
def whereEntries (conditions : List Condition) : Entries Value :=
  conditions.foldl (fun asked condition =>
    let field := .str condition.field
    let nested := match asked.find? field with
      | some (.map entries) => entries
      | _ => []
    asked.put field (.map (Entries.put nested (.str condition.writtenName) condition.value))) []

/-- Holds further conditions against the fields that are finished, the current field and the
operators used on it. -/
def checkFrom (finished : List String) (current? : Option String) (used : List String) :
    List Condition → Except StatementError Unit
  | [] => .ok ()
  | condition :: rest =>
    let field := condition.field
    let name := condition.writtenName
    if current? = some field then
      if used.contains name then .error (.duplicate field condition.operatorName)
      else checkFrom finished current? (name :: used) rest
    else if finished.contains field then .error (.notAdjacent field)
    else checkFrom (current?.toList ++ finished) (some field) [name] rest

/-- Refuses conditions that grouping by field would reorder or merge: those on one field have to be
adjacent and to use distinct operators. -/
def check (conditions : List Condition) : Except StatementError Unit := checkFrom [] none [] conditions

end Condition

/-! ## Retrievals -/

/-- How a statement reads from the indexes of a collection. -/
inductive Retrieval where
  | scan
  | get (key : Value) (index? : Option String)
  | getAll (keys : List Value) (index? : Option String)
  | between (left right : Value) (index? : Option String) (inclusive? : Option Bool)
  deriving Repr, Inhabited

namespace Retrieval

/-- The retrieval of a list of keys: one key is looked up alone. -/
def ofKeys (keys : List Value) (index? : Option String) : Retrieval :=
  match keys with
  | [key] => .get key index?
  | keys => .getAll keys index?

/-- The name of the index to use. -/
def index? : Retrieval → Option String
  | .scan => none
  | .get _ index? => index?
  | .getAll _ index? => index?
  | .between _ _ index? _ => index?

/-- Whether both boundaries belong to the range, if the statement says so. -/
def inclusive? : Retrieval → Option Bool
  | .between _ _ _ inclusive? => inclusive?
  | _ => none

/-- The options that the retrieval gives to a query. -/
def options (retrieval : Retrieval) : Entries Value :=
  let index := match retrieval.index? with
    | some name => if name.isEmpty then [] else [(.str "index", .str name)]
    | none => []
  let bounds := match retrieval.inclusive? with
    | some inclusive =>
      [(.str "left_inclusive", .bool inclusive), (.str "right_inclusive", .bool inclusive)]
    | none => []
  index ++ bounds

end Retrieval

/-! ## Statements -/

/-- A statement. -/
structure Statement where
  retrieval : Retrieval
  conditions : List Condition
  sortBy : List SortKey
  offset : Int
  limit : Option Int
  deriving Repr, Inhabited

/-- The structured filter of a statement, without the parts that change nothing. -/
def Statement.filterEntries (statement : Statement) : Entries Value :=
  let asked := Condition.whereEntries statement.conditions
  let order := statement.sortBy.map fun key =>
    Value.list [.str key.field, .str key.direction.word]
  (if asked.isEmpty then [] else [(.str "where", .map asked)]) ++
    (if order.isEmpty then [] else [(.str "orderBy", .list order)]) ++
    (if statement.offset = 0 then [] else [(.str "skip", .int statement.offset)]) ++
    (match statement.limit with
      | some n => [(.str "limit", .int n)]
      | none => [])

end RecordQuery.Itq

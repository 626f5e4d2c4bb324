import RecordQuery.Number.Quantity

/-!
# Values

Records, keys, predicates and options are values: null, truth values, numbers, decimals, text,
sequences of two kinds, sets, mappings, objects with attributes, and the two values that only an
order specification holds. A mapping keeps its entries in the order in which their keys first came.
-/

namespace RecordQuery

/-- The direction of one sort key. -/
inductive Direction where
  | ascending
  | descending
  deriving DecidableEq, Repr, Inhabited

/-- The word of a direction. -/
def Direction.word : Direction → String
  | .ascending => "ASC"
  | .descending => "DESC"

/-- A field to sort by, with its direction. -/
structure SortKey where
  field : String
  direction : Direction
  deriving DecidableEq, Repr, Inhabited

/-- A data value. -/
inductive Value where
  | null
  | bool (b : Bool)
  | int (n : Int)
  | float (x : Binary64)
  /-- A decimal is kept as it was written, with the zeros that end its coefficient. -/
  | decimal (negative : Bool) (d : Decimal)
  | str (s : String)
  | list (items : List Value)
  | tuple (items : List Value)
  | set (items : List Value)
  | map (entries : List (Value × Value))
  /-- An object is told from others by its identity, whatever its attributes are. -/
  | object (identity : Nat) (attributes : List (String × Value))
  | direction (d : Direction)
  | sortKey (key : SortKey)
  deriving Repr, Inhabited

/-- The entries of a mapping whose keys are values, in insertion order. -/
abbrev Entries (α : Type) := List (Value × α)

namespace Value

/-- The name of the value's kind in messages. -/
def kindName : Value → String
  | .null => "NoneType"
  | .bool _ => "bool"
  | .int _ => "int"
  | .float _ => "float"
  | .decimal _ _ => "Decimal"
  | .str _ => "str"
  | .list _ => "list"
  | .tuple _ => "tuple"
  | .set _ => "set"
  | .map _ => "dict"
  | .object _ _ => "object"
  | .direction _ => "Direction"
  | .sortKey _ => "SortKey"

/-- The value as a number of a key; truth values are numbers there. -/
def numeric? : Value → Option Numeric
  | .bool b => some (.truth b)
  | .int n => some (.int n)
  | .float x => some (.float x)
  | _ => none

/-- The value as it is equal to others and ordered by exact value. -/
def quantity? : Value → Option Quantity
  | .bool b => some (.numeric (.truth b))
  | .int n => some (.numeric (.int n))
  | .float x => some (.numeric (.float x))
  | .decimal negative d => some (.decimal negative d)
  | _ => none

/-- The value as a number proper; truth values are none. -/
def number? : Value → Option Numeric
  | .int n => some (.int n)
  | .float x => some (.float x)
  | _ => none

/-- Whether the value is a number proper. -/
def isNumber (v : Value) : Bool := v.number?.isSome

/-- Null, false, zero and whatever is empty count as false, all else as true. -/
def isTruthy : Value → Bool
  | .null => false
  | .bool b => b
  | .int n => n != 0
  | .float x => !x.isZero
  | .decimal _ d => d.coefficient != 0
  | .str s => !s.isEmpty
  | .list items => !items.isEmpty
  | .tuple items => !items.isEmpty
  | .set items => !items.isEmpty
  | .map entries => !entries.isEmpty
  | _ => true

/-- Whether the value is not-a-number. -/
def isNaN : Value → Bool
  | .float (.nan _) => true
  | _ => false

/-- The value, or null in place of none. -/
def ofOption (v : Option Value) : Value := v.getD .null

mutual
/-- The kind of the first part of the value that cannot be a key, looking into tuples. -/
def unkeyable? : Value → Option String
  | .list _ => some "list"
  | .set _ => some "set"
  | .map _ => some "dict"
  | .tuple items => unkeyableIn? items
  | _ => none
termination_by structural v => v

/-- The kind of the first part that cannot be a key in any of the values. -/
def unkeyableIn? : List Value → Option String
  | [] => none
  | v :: rest => (unkeyable? v).or (unkeyableIn? rest)
termination_by structural v => v
end

end Value

end RecordQuery
